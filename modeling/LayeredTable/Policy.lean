/-! How an evaluation is to be run, and tokens by which it can be stopped. -/
namespace LayeredTable

structure Duration where
  seconds : UInt64
  nanos : UInt32
  below : nanos < 1000000000
  deriving DecidableEq, Repr

namespace Duration

/-- Nanoseconds may make whole seconds, as long as those fit. -/
def of? (seconds : UInt64) (nanos : UInt32) : Option Duration :=
  let total := seconds.toNat + nanos.toNat / 1000000000
  if total < UInt64.size then
    some ⟨.ofNat total, nanos % 1000000000, UInt32.mod_lt nanos (by decide)⟩
  else none

def ofMillis (ms : Nat) : Duration :=
  ⟨.ofNat (ms / 1000), .ofNat (ms % 1000 * 1000000), by
    have small : ms % 1000 * 1000000 < 1000000000 := by omega
    rw [UInt32.lt_iff_toNat_lt, UInt32.toNat_ofNat']
    exact Nat.lt_of_le_of_lt (Nat.mod_le _ _) small⟩

def toMillis (d : Duration) : Nat := d.seconds.toNat * 1000 + d.nanos.toNat / 1000000

def isZero (d : Duration) : Bool := d.seconds == 0 && d.nanos == 0

end Duration

inductive Mode
  /-- Wait for every operand. -/
  | strict
  /-- Give up when the deadline has passed. -/
  | hardened
  deriving DecidableEq, Repr

structure Policy where
  mode : Mode := .strict
  deadline : Option Duration := none
  recordRowDefects : Bool := true
  deriving DecidableEq, Repr, Inhabited

namespace Policy

def strict : Policy := {}

def hardened (deadline : Duration) : Policy := { mode := .hardened, deadline := some deadline }

def withoutRowDefects (p : Policy) : Policy := { p with recordRowDefects := false }

/-- How long an evaluation may take. Strict mode sets no limit, whatever `deadline` holds. -/
def limit (p : Policy) : Option Duration :=
  match p.mode with
  | .strict => none
  | .hardened => p.deadline

/-- Whether the deadline has passed by a clock that stands still while an evaluation runs: only an
empty one has. The clock of `Behaviour.checkpoint` goes on. -/
def expired (p : Policy) : Bool := p.limit.any Duration.isZero

end Policy

/-- A token that shares one of the flags it was made with. -/
structure CancelToken where
  flag : Nat
  deriving DecidableEq, Repr

structure CancelFlags where
  raised : Array Bool := #[]
  deriving DecidableEq, Repr, Inhabited

namespace CancelFlags

def fresh (fs : CancelFlags) : CancelToken × CancelFlags :=
  (⟨fs.raised.size⟩, ⟨fs.raised.push false⟩)

def cancel (fs : CancelFlags) (t : CancelToken) : CancelFlags :=
  ⟨fs.raised.setIfInBounds t.flag true⟩

def isCancelled (fs : CancelFlags) (t : CancelToken) : Bool := fs.raised.getD t.flag false

end CancelFlags
end LayeredTable
