import Mathlib.Tactic.Common

namespace Libcsp

/- Return codes of `csp_error.h`, with the values the doc comments of
`CspError` quote, and the crate's own sentinel. -/
def cspErrNone : Int := 0
def cspErrNomem : Int := -1
def cspErrInval : Int := -2
def cspErrTimedout : Int := -3
def cspErrUsed : Int := -4
def cspErrNotsup : Int := -5
def cspErrBusy : Int := -6
def cspErrAlready : Int := -7
def cspErrReset : Int := -8
def cspErrNobufs : Int := -9
def cspErrTx : Int := -10
def cspErrDriver : Int := -11
def cspErrAgain : Int := -12
def cspErrNosys : Int := -38
def cspErrHmac : Int := -100
def cspErrCrc32 : Int := -102
def cspErrSfp : Int := -103
def cspErrAborted : Int := -200

inductive CspError
  | noMemory | invalidArgument | timedOut | resourceInUse | notSupported | busy
  | alreadyInProgress | connectionReset | noBuffers | transmitFailed | driverError | again
  | hmacFailed | crc32Failed | sfpError | notImplemented | aborted | alreadyInitialized
  | other (code : Int)
  deriving DecidableEq, Repr

/-- `CspError::from_code`. The codes are tried in the order of the source. -/
def CspError.fromCode (code : Int) : CspError :=
  if code = cspErrNomem then .noMemory
  else if code = cspErrInval then .invalidArgument
  else if code = cspErrTimedout then .timedOut
  else if code = cspErrUsed then .resourceInUse
  else if code = cspErrNotsup then .notSupported
  else if code = cspErrBusy then .busy
  else if code = cspErrAlready then .alreadyInProgress
  else if code = cspErrReset then .connectionReset
  else if code = cspErrNobufs then .noBuffers
  else if code = cspErrTx then .transmitFailed
  else if code = cspErrDriver then .driverError
  else if code = cspErrAgain then .again
  else if code = cspErrHmac then .hmacFailed
  else if code = cspErrCrc32 then .crc32Failed
  else if code = cspErrSfp then .sfpError
  else if code = cspErrNosys then .notImplemented
  else if code = cspErrAborted then .aborted
  else .other code

theorem CspError.fromCode_aborted_iff {code : Int} : CspError.fromCode code = .aborted ↔ code = cspErrAborted := by
  have skip {p : Prop} [Decidable p] {first rest : CspError} (other : first ≠ .aborted)
      (same : (if p then first else rest) = .aborted) : rest = .aborted := by
    split at same
    · exact absurd same other
    · exact same
  constructor
  · intro same
    unfold CspError.fromCode at same
    -- the sentinel is the last of seventeen codes
    iterate 16 replace same := skip (by decide) same
    by_contra other
    rw [if_neg other] at same
    cases same
  · intro sentinel
    rw [sentinel]
    decide

def cspResult (code : Int) : Except CspError Unit :=
  if code = 0 then .ok () else .error (CspError.fromCode code)

theorem cspResult_ok_iff {code : Int} : cspResult code = .ok () ↔ code = 0 := by
  unfold cspResult
  split <;> simp_all

end Libcsp
