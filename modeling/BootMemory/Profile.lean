import BootMemory.Fault
import BootMemory.Size

/-!
# Profiles

The same program is built in two profiles.  In `debug` an assertion that does
not hold and an arithmetic result outside the 64-bit range are faults.  In
`release` assertions are not looked at, and results are taken modulo `wordCount`.

Counters, frame numbers and lengths are natural numbers here; the operations
below are the only places where their 64-bit range is felt.
-/

namespace BootMemory

/-- Whether assertions and overflow checks are in force. -/
inductive Profile where
  | debug
  | release
  deriving Repr, DecidableEq

namespace Profile

/-- Demand a condition; only the debug profile looks at it. -/
def assert (profile : Profile) (condition : Bool) (fault : Fault) :
    Except Fault Unit :=
  match profile with
  | debug => if condition then .ok () else .error fault
  | release => .ok ()

/-- Bring an exact result into the 64-bit range. -/
def fit (profile : Profile) (fault : Fault) (result : Nat) : Except Fault Nat :=
  match profile with
  | debug => if result < wordCount then .ok result else .error fault
  | release => .ok (result % wordCount)

/-- The 64-bit sum. -/
def add (profile : Profile) (left right : Nat) : Except Fault Nat :=
  profile.fit .addOverflow (left + right)

/-- The 64-bit product. -/
def mul (profile : Profile) (left right : Nat) : Except Fault Nat :=
  profile.fit .multiplyOverflow (left * right)

/-- The 64-bit difference. -/
def sub (profile : Profile) (left right : Nat) : Except Fault Nat :=
  match profile with
  | debug => if right ≤ left then .ok (left - right) else .error .subtractOverflow
  | release =>
      .ok
        ((left + (wordCount - right % wordCount)) %
          wordCount)

/-- The sum of two words. -/
def addWord (profile : Profile) (left right : UInt64) : Except Fault UInt64 :=
  (profile.add left.toNat right.toNat).map UInt64.ofNat

/-- The difference of two words. -/
def subWord (profile : Profile) (left right : UInt64) : Except Fault UInt64 :=
  (profile.sub left.toNat right.toNat).map UInt64.ofNat

@[simp]
theorem assert_true (profile : Profile) (fault : Fault) :
    profile.assert true fault = .ok () := by
  cases profile <;> rfl

@[simp]
theorem assert_release (condition : Bool) (fault : Fault) :
    release.assert condition fault = .ok () := rfl

@[simp]
theorem assert_debug_false (fault : Fault) :
    debug.assert false fault = .error fault := rfl

theorem fit_of_lt (profile : Profile) (fault : Fault) {result : Nat}
    (small : result < wordCount) :
    profile.fit fault result = .ok result := by
  cases profile
  · simp only [fit, if_pos small]
  · simp only [fit, Nat.mod_eq_of_lt small]

/-- A result that is no word stops the debug profile. -/
theorem fit_debug_of_le (fault : Fault) {result : Nat}
    (beyond : wordCount ≤ result) :
    debug.fit fault result = .error fault := by
  rw [fit, if_neg (Nat.not_lt.mpr beyond)]

theorem add_of_lt (profile : Profile) {left right : Nat}
    (small : left + right < wordCount) :
    profile.add left right = .ok (left + right) :=
  profile.fit_of_lt _ small

theorem mul_of_lt (profile : Profile) {left right : Nat}
    (small : left * right < wordCount) :
    profile.mul left right = .ok (left * right) :=
  profile.fit_of_lt _ small

theorem sub_of_le (profile : Profile) {left right : Nat}
    (small : left < wordCount) (ordered : right ≤ left) :
    profile.sub left right = .ok (left - right) := by
  cases profile
  · simp only [sub, if_pos ordered]
  · simp only [sub, Except.ok.injEq, wordCount] at small ⊢
    omega

/-- A value that the debug profile accepts is the one that release computes. -/
theorem fit_release_of_debug {fault : Fault} {result value : Nat}
    (accepted : debug.fit fault result = .ok value) :
    release.fit fault result = .ok value := by
  by_cases small : result < wordCount
  · rw [fit_of_lt release fault small, ← fit_of_lt debug fault small, accepted]
  · simp only [fit] at accepted
    rw [if_neg small] at accepted
    cases accepted

/-- A result that is brought into the range of a word is in it. -/
theorem lt_of_fit
    {profile : Profile} {fault : Fault} {result value : Nat}
    (accepted : profile.fit fault result = .ok value) : value < wordCount := by
  cases profile with
  | debug =>
      by_cases small : result < wordCount
      · rw [fit_of_lt debug fault small] at accepted
        cases accepted
        exact small
      · rw [fit, if_neg small] at accepted
        cases accepted
  | release =>
      cases accepted
      exact Nat.mod_lt _ (by decide)

end Profile

end BootMemory
