import SignalGraph.Config
import SignalGraph.Json.Codec.Value
import SignalGraph.Object.Record

/-! # Documents of objects

Identities are numbers, categories lists of names, and pools records of their instances.
-/

namespace SignalGraph

instance : Tagged ObjectKind where
  all := ObjectKind.all
  tag
    | .device => "Device"
    | .signal => "Signal"
    | .map => "Map"
    | .link => "Link"

instance : Tagged Status where
  all := [.new, .modified, .removed, .expired]
  tag
    | .new => "New"
    | .modified => "Modified"
    | .removed => "Removed"
    | .expired => "Expired"

instance : Tagged Lifecycle where
  all := [.added, .modified, .removed, .expired]
  tag
    | .added => "Added"
    | .modified => "Modified"
    | .removed => "Removed"
    | .expired => "Expired"

instance : Codec ObjectId where
  encode id := encode id.val
  decode j := (decode j).map ObjectId.mk

instance : Codec SlotLocation where
  encode
    | .source i => .object [("Source", encode i)]
    | .destination => .string "Destination"
  decode j :=
    match j.case? with
    | some ("Source", some i) => (decode i).map SlotLocation.source
    | some ("Destination", none) | some ("Destination", some .null) => some .destination
    | _ => none

instance : Codec Categories where
  encode c := encode c.names
  decode j := (decode j).bind fun names => (Categories.ofNames names).toOption

instance : Codec Slot where
  encode s := .object [("signal", encode s.signal), ("properties", encode s.properties)]
  decode j := do
    let [signal, properties] ← j.fields? ["signal", "properties"] 2 | none
    return ⟨← Json.required signal, ← Json.required properties⟩

/-! ## Instances -/

instance : Tagged InstanceState where
  all := [.reserved, .active, .free]
  tag
    | .reserved => "Reserved"
    | .active => "Active"
    | .free => "Free"

instance : Tagged PoolEventKind where
  all := [.new, .update, .releasedByNetwork, .releasedHere, .overflow]
  tag
    | .new => "New"
    | .update => "Update"
    | .releasedByNetwork => "UpstreamRelease"
    | .releasedHere => "DownstreamRelease"
    | .overflow => "Overflow"

instance : Codec PoolEvent where
  encode e := .object [("kind", encode e.kind), ("instance", encode e.id)]
  decode j := do
    let [kind, id] ← j.fields? ["kind", "instance"] 2 | none
    return ⟨← Json.required kind, ← Json.required id⟩

instance : Codec Sample where
  encode s := .object [("value", encode s.value), ("time", encode s.time)]
  decode j := do
    let [value, time] ← j.fields? ["value", "time"] 2 | none
    return ⟨← Json.required value, ← Json.required time⟩

instance : Codec Instance where
  encode i := .object
    [("id", encode i.id), ("state", encode i.state), ("last", encode i.last),
     ("tag", encode i.tag), ("activated", encode i.activated)]
  decode j := do
    let [id, state, last, tag, activated] ←
      j.fields? ["id", "state", "last", "tag", "activated"] 5 | none
    return ⟨← Json.required id, ← Json.required state, ← Json.optional last, ← Json.optional tag,
      ← Json.optional activated⟩

instance : Codec Pool where
  encode p := .object
    [("slots", encode p.slots), ("steal", encode p.steal), ("capacity", encode p.capacity)]
  decode j := do
    let [slots, steal, capacity] ← j.fields? ["slots", "steal", "capacity"] 3 | none
    return ⟨← Json.required slots, ← Json.required steal, ← Json.required capacity⟩

/-! ## Configuration -/

instance : Codec Config where
  encode c := .object
    [("grace_period_ms", encode c.gracePeriodMs),
     ("device_timeout_secs", encode c.deviceTimeoutSecs),
     ("autorenew_interval_secs", encode c.autorenewIntervalSecs),
     ("renew_margin_secs", encode c.renewMarginSecs),
     ("max_instances", encode c.maxInstances),
     ("default_instances", encode c.defaultInstances),
     ("default_steal", encode c.defaultSteal),
     ("max_map_sources", encode c.maxMapSources),
     ("autosubscribe", encode c.autosubscribe)]
  decode j := do
    let [grace, timeout, autorenew, margin, maxInstances, defaultInstances, steal, mapSources,
        autosubscribe] ← j.fields?
      ["grace_period_ms", "device_timeout_secs", "autorenew_interval_secs", "renew_margin_secs",
       "max_instances", "default_instances", "default_steal", "max_map_sources",
       "autosubscribe"] 0 | none
    let usual := Config.standard
    return {
      gracePeriodMs := ← Json.withDefault usual.gracePeriodMs grace
      deviceTimeoutSecs := ← Json.withDefault usual.deviceTimeoutSecs timeout
      autorenewIntervalSecs := ← Json.withDefault usual.autorenewIntervalSecs autorenew
      renewMarginSecs := ← Json.withDefault usual.renewMarginSecs margin
      maxInstances := ← Json.withDefault usual.maxInstances maxInstances
      defaultInstances := ← Json.withDefault usual.defaultInstances defaultInstances
      defaultSteal := ← Json.withDefault usual.defaultSteal steal
      maxMapSources := ← Json.withDefault usual.maxMapSources mapSources
      autosubscribe := ← Json.withDefault usual.autosubscribe autosubscribe }

end SignalGraph
