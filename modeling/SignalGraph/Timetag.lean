import SignalGraph.Binary.Arithmetic
import SignalGraph.Text.Digits

/-! # Timetags

Network time in seconds since 1900 and a fraction in units of two to the minus thirty-two.
Arithmetic goes through 64-bit numbers, rounded at each step, and saturates at both ends.
-/

namespace SignalGraph

structure Timetag where
  sec : UInt32
  frac : UInt32
  deriving Repr, DecidableEq

namespace Timetag

/-- The moment that stands for "immediately". -/
def zero : Timetag := ⟨0, 0⟩

/-- The whole time in units of the fraction. -/
def ticks (t : Timetag) : Nat := t.sec.toNat * UInt32.size + t.frac.toNat

/-- Order is chronological. -/
instance : LE Timetag := ⟨fun a b => a.ticks ≤ b.ticks⟩

instance : LT Timetag := ⟨fun a b => a.ticks < b.ticks⟩

instance (a b : Timetag) : Decidable (a ≤ b) := inferInstanceAs (Decidable (a.ticks ≤ b.ticks))

instance (a b : Timetag) : Decidable (a < b) := inferInstanceAs (Decidable (a.ticks < b.ticks))

instance : Ord Timetag := ⟨fun a b => compare a.ticks b.ticks⟩

def fractionScale : Double := .ofInt UInt32.size

def ofWord (n : UInt32) : Double := .ofInt n.toNat

/-- The time from fractional seconds since 1900; what is not above zero is the zero time. Seconds
    and fraction saturate each on its own. -/
def ofSeconds (s : Double) : Timetag :=
  if !s.isAbove .zero then zero
  else
    let whole := s.floor
    ⟨whole.toUInt32, ((s.sub whole).mul fractionScale).toUInt32⟩

def seconds (t : Timetag) : Double := (ofWord t.sec).add ((ofWord t.frac).div fractionScale)

/-- The seconds from `earlier` to `t`, negative if it is later. -/
def since (t earlier : Timetag) : Double :=
  ((ofWord t.sec).sub (ofWord earlier.sec)).add
    (((ofWord t.frac).sub (ofWord earlier.frac)).div fractionScale)

def shift (t : Timetag) (s : Double) : Timetag := ofSeconds (t.seconds.add s)

/-- Whether at least `s` seconds lie between `earlier` and `t`; true where the two cannot be
    compared. -/
def hasElapsed (t earlier : Timetag) (s : Double) : Bool :=
  (t.since earlier).compare? s != some .lt

/-- The seconds from 1900 to 1970. -/
def unixEpoch : Int := 2208988800

def billion : Double := .ofInt 1000000000

/-- The time of an instant in seconds since 1970 and nanoseconds. -/
def ofUnix (seconds : Int) (nanoseconds : Nat) : Timetag :=
  ⟨UInt32.ofNat (max 0 (min ((UInt32.size : Int) - 1) (seconds + unixEpoch))).toNat,
   (((Binary.ofInt nanoseconds).div billion).mul fractionScale).toUInt32⟩

/-- The instant in seconds since 1970 and nanoseconds; none before 1970. -/
def toUnix? (t : Timetag) : Option (Int × Nat) :=
  let seconds := (t.sec.toNat : Int) - unixEpoch
  if seconds < 0 then none
  else some (seconds,
    min (((ofWord t.frac).div fractionScale).mul billion).toUInt32.toNat 999999999)

/-- Seconds, and the fraction as eight hexadecimal digits. -/
def text (t : Timetag) : String :=
  String.ofList (Text.decimalDigits t.sec.toNat ++ '.' :: Text.hexPadded 8 t.frac.toNat)

end Timetag

end SignalGraph
