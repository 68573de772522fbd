import Mathlib

/-!
# Primitives — the validation state

Every check of `main.cpp` reports a rejection by writing into the caller's `CValidationState`
and returning `false`: `state.DoS(level, ret, code, reason, corruption, debug)`, its
`Invalid` form with level 0, and `Error` for a system failure.  `consensus/validation.h` is
not part of the sources; the state is modelled from the spec (§7: every rejection carries a
stable reason string and a numeric severity, and no outcome leaves the boundary other than
as a value).  Reject codes are kept by name.

A state is *valid* when no rejection has been recorded in it.
-/

namespace Ecc

/-- The reject codes `main.cpp` uses, and `unset`, the code 0 of a rejection given none. -/
inductive RejectCode
  | unset
  | REJECT_INVALID
  | REJECT_NONSTANDARD
  | REJECT_INSUFFICIENTFEE
  | REJECT_ALREADY_KNOWN
  | REJECT_CONFLICT
  | REJECT_HIGHFEE
deriving DecidableEq, Repr

inductive ValidationMode
  | MODE_VALID
  | MODE_INVALID
  | MODE_ERROR
deriving DecidableEq, Repr

structure CValidationState where
  mode : ValidationMode
  nDoS : Int
  chRejectCode : RejectCode
  strRejectReason : String
  corruptionPossible : Bool
  strDebugMessage : String
deriving DecidableEq, Repr

/-- What a check whose code is not under `src/` records when it fails. -/
structure Rejection where
  level : Int
  code : RejectCode
  reason : String
  debug : String
deriving DecidableEq, Repr

namespace CValidationState

/-- The state a caller passes in before any check ran. -/
def fresh : CValidationState :=
  ⟨.MODE_VALID, 0, .unset, "", false, ""⟩

/-- `DoS(level, ret, code, reason, corruption, debug)`: record the rejection and add the
level to the score, unless a system error is already recorded. -/
def DoS (s : CValidationState) (level : Int) (code : RejectCode) (reason : String)
    (corruption : Bool) (debug : String) : CValidationState :=
  let s := { s with chRejectCode := code, strRejectReason := reason,
                    corruptionPossible := corruption, strDebugMessage := debug }
  if s.mode = .MODE_ERROR then s else { s with nDoS := s.nDoS + level, mode := .MODE_INVALID }

/-- `Invalid(ret, code, reason, debug)`, a rejection with no score. -/
def Invalid (s : CValidationState) (code : RejectCode) (reason : String) (debug : String) :
    CValidationState :=
  s.DoS 0 code reason false debug

/-- `Error(reason)`, a system failure. -/
def Error (s : CValidationState) (reason : String) : CValidationState :=
  { s with mode := .MODE_ERROR,
           strRejectReason := if s.mode = .MODE_VALID then reason else s.strRejectReason }

/-- Record a rejection reported by such a check. -/
def reject (s : CValidationState) (r : Rejection) : CValidationState :=
  s.DoS r.level r.code r.reason false r.debug

/-- No rejection recorded: `IsValid()`, with no reject code, reason or score. -/
def Clean (s : CValidationState) : Prop :=
  s.mode = .MODE_VALID ∧ s.nDoS = 0 ∧ s.chRejectCode = .unset ∧ s.strRejectReason = ""

instance (s : CValidationState) : Decidable s.Clean := by
  unfold Clean; infer_instance

@[simp] theorem DoS_mode_ne_valid (s : CValidationState) (level : Int) (code : RejectCode)
    (reason : String) (c : Bool) (d : String) : (s.DoS level code reason c d).mode ≠ .MODE_VALID := by
  unfold DoS
  dsimp only
  split <;> simp_all

@[simp] theorem Invalid_mode_ne_valid (s : CValidationState) (code : RejectCode)
    (reason : String) (d : String) : (s.Invalid code reason d).mode ≠ .MODE_VALID :=
  DoS_mode_ne_valid s 0 code reason false d

@[simp] theorem DoS_reason (s : CValidationState) (level : Int) (code : RejectCode)
    (reason : String) (c : Bool) (d : String) :
    (s.DoS level code reason c d).strRejectReason = reason := by
  unfold DoS
  dsimp only
  split <;> rfl

@[simp] theorem Invalid_reason (s : CValidationState) (code : RejectCode) (reason d : String) :
    (s.Invalid code reason d).strRejectReason = reason :=
  DoS_reason s 0 code reason false d

end CValidationState

end Ecc
