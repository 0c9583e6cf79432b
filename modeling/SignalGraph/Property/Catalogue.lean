import SignalGraph.Value.Kind

/-! # Catalogue of well-known properties

The properties that every participant knows, with the kind and the length their values must have.
-/

namespace SignalGraph

inductive Property where
  | boundMax
  | boundMin
  | device
  | devices
  | destination
  | direction
  | ephemeral
  | expr
  | host
  | id
  | isLocal
  | jitter
  | length
  | libVersion
  | max
  | min
  | muted
  | name
  | numInst
  | numMapsIn
  | numMapsOut
  | numSigsIn
  | numSigsOut
  | ordinal
  | period
  | portNumber
  | processLoc
  | protocol
  | rate
  | scope
  | sources
  | steal
  | synced
  | type
  | unit
  | useInst
  | version
  deriving Repr, DecidableEq

/-- The kinds a well-known property accepts. -/
inductive KindRule where
  | exactly (kind : Kind)
  | numeric
  deriving Repr, DecidableEq

/-- What a value must be like: its kind, and its length where that is fixed. -/
structure PropertyRule where
  kind : KindRule
  length : Option Nat
  deriving Repr, DecidableEq

namespace Property

def all : List Property :=
  [.boundMax, .boundMin, .device, .devices, .destination, .direction, .ephemeral, .expr, .host,
   .id, .isLocal, .jitter, .length, .libVersion, .max, .min, .muted, .name, .numInst, .numMapsIn,
   .numMapsOut, .numSigsIn, .numSigsOut, .ordinal, .period, .portNumber, .processLoc, .protocol,
   .rate, .scope, .sources, .steal, .synced, .type, .unit, .useInst, .version]

def text : Property → String
  | boundMax => "@bound_max"
  | boundMin => "@bound_min"
  | device => "@device"
  | devices => "@devices"
  | destination => "@destination"
  | direction => "@direction"
  | ephemeral => "@ephemeral"
  | expr => "@expr"
  | host => "@host"
  | id => "@id"
  | isLocal => "@is_local"
  | jitter => "@jitter"
  | length => "@length"
  | libVersion => "@lib_version"
  | max => "@max"
  | min => "@min"
  | muted => "@muted"
  | name => "@name"
  | numInst => "@num_inst"
  | numMapsIn => "@num_maps_in"
  | numMapsOut => "@num_maps_out"
  | numSigsIn => "@num_sigs_in"
  | numSigsOut => "@num_sigs_out"
  | ordinal => "@ordinal"
  | period => "@period"
  | portNumber => "@port"
  | processLoc => "@process_loc"
  | protocol => "@protocol"
  | rate => "@rate"
  | scope => "@scope"
  | sources => "@sources"
  | steal => "@steal"
  | synced => "@synced"
  | type => "@type"
  | unit => "@unit"
  | useInst => "@use_inst"
  | version => "@version"

def rule : Property → PropertyRule
  | boundMax | boundMin | direction | expr | host | libVersion | name | processLoc
  | protocol | steal | type | unit => ⟨.exactly .string, some 1⟩
  | device | destination | id => ⟨.exactly .int64, some 1⟩
  | devices => ⟨.exactly .int64, some 2⟩
  | ephemeral | isLocal | muted | useInst => ⟨.exactly .bool, some 1⟩
  | jitter | period | rate => ⟨.exactly .float32, some 1⟩
  | length | numInst | numMapsIn | numMapsOut | numSigsIn | numSigsOut | ordinal
  | portNumber | version => ⟨.exactly .int32, some 1⟩
  | max | min => ⟨.numeric, none⟩
  | scope => ⟨.exactly .string, none⟩
  | sources => ⟨.exactly .int64, none⟩
  | synced => ⟨.exactly .time, some 1⟩

end Property

namespace KindRule

def accepts : KindRule → Kind → Bool
  | exactly kind, k => kind == k
  | numeric, k => k.isNumeric

/-- How a diagnostic names the accepted kinds. -/
def name : KindRule → String
  | exactly kind => kind.name
  | numeric => "numeric"

end KindRule

end SignalGraph
