import SignalGraph.Json.Codec.Object
import SignalGraph.Subscription

/-! # Documents of messages and subscriptions -/

namespace SignalGraph

instance : Tagged EventType where
  all := [.announce, .update, .remove, .expire]
  tag
    | .announce => "Announce"
    | .update => "Update"
    | .remove => "Remove"
    | .expire => "Expire"

instance : Codec SlotDiff where
  encode s := .object [("location", encode s.location), ("diff", encode s.diff)]
  decode j := do
    let [location, diff] ← j.fields? ["location", "diff"] 2 | none
    return ⟨← Json.required location, ← Json.required diff⟩

instance : Codec Delta where
  encode d := .object
    [("kind", encode d.kind), ("id", encode d.id), ("diff", encode d.diff),
     ("slots", encode d.slots)]
  decode j := do
    let [kind, id, diff, slots] ← j.fields? ["kind", "id", "diff", "slots"] 4 | none
    return ⟨← Json.required kind, ← Json.required id, ← Json.required diff,
      ← Json.required slots⟩

instance : Codec ValueUpdate where
  encode u := .object
    [("signal", encode u.signal), ("instance", encode u.slot), ("value", encode u.value),
     ("time", encode u.time)]
  decode j := do
    let [signal, slot, value, time] ← j.fields? ["signal", "instance", "value", "time"] 4 | none
    return ⟨← Json.required signal, ← Json.optional slot, ← Json.optional value,
      ← Json.required time⟩

instance : Codec NetworkEvent where
  encode
    | .record type delta =>
      .object [("Record", .object [("event", encode type), ("delta", encode delta)])]
    | .value update => .object [("Value", encode update)]
    | .sync device => .object [("Sync", .object [("device", encode device)])]
  decode j := do
    match ← j.case? with
    | ("Record", some content) =>
      let [type, delta] ← content.fields? ["event", "delta"] 2 | none
      return .record (← Json.required type) (← Json.required delta)
    | ("Value", some content) => return .value (← decode content)
    | ("Sync", some content) =>
      let [device] ← content.fields? ["device"] 1 | none
      return .sync (← Json.required device)
    | _ => none

instance : Codec Destination where
  encode
    | .bus => .string "Bus"
    | .device id => .object [("Device", encode id)]
  decode j :=
    match j.case? with
    | some ("Bus", none) | some ("Bus", some .null) => some .bus
    | some ("Device", some id) => (decode id).map Destination.device
    | _ => none

instance : Codec SubscriptionRequest where
  encode r := .object
    [("device", encode r.device), ("types", encode r.categories),
     ("lease_secs", encode r.leaseSeconds)]
  decode j := do
    let [device, categories, leaseSeconds] ← j.fields? ["device", "types", "lease_secs"] 3 | none
    return ⟨← Json.required device, ← Json.required categories, ← Json.required leaseSeconds⟩

/-! ## Subscriptions -/

instance : Codec Lease where
  encode
    | .renewing => .string "Renewing"
    | .seconds n => .object [("Seconds", encode n)]
    | .cancel => .string "Cancel"
  decode j :=
    match j.case? with
    | some ("Renewing", none) | some ("Renewing", some .null) => some .renewing
    | some ("Seconds", some n) => (decode n).map Lease.seconds
    | some ("Cancel", none) | some ("Cancel", some .null) => some .cancel
    | _ => none

instance : Codec SubscriptionTarget where
  encode
    | .device id => .object [("Device", encode id)]
    | .pattern glob => .object [("Pattern", encode glob)]
  decode j :=
    match j.case? with
    | some ("Device", some id) => (decode id).map SubscriptionTarget.device
    | some ("Pattern", some glob) => (decode glob).map SubscriptionTarget.pattern
    | _ => none

instance : Codec Subscription where
  encode s := .object
    [("device", encode s.device), ("types", encode s.categories), ("lease", encode s.lease),
     ("expires", encode s.expires), ("pending", encode s.pending), ("pattern", encode s.pattern)]
  decode j := do
    let [device, categories, lease, expires, pending, pattern] ←
      j.fields? ["device", "types", "lease", "expires", "pending", "pattern"] 6 | none
    return ⟨← Json.required device, ← Json.required categories, ← Json.required lease,
      ← Json.optional expires, ← Json.required pending, ← Json.optional pattern⟩

end SignalGraph
