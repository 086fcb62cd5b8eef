/-!
# How attaching and reading fail

Each cause of failure has a line of text and a negative status, the form in which
a registration layer takes it.
-/

namespace FuseBank

/-- The positive numbers behind the statuses. -/
inductive StatusCode where
  /-- The request makes no sense. -/
  | invalidArgument
  /-- The hardware refused or answered badly. -/
  | inputOutput
  /-- There is no memory, or no such place in the bank. -/
  | outOfMemory
  /-- The hardware did not answer in time. -/
  | timedOut
  deriving DecidableEq, Repr

/-- The number that stands for a code. -/
def StatusCode.number : StatusCode → Nat
  | .invalidArgument => 22
  | .inputOutput => 5
  | .outOfMemory => 12
  | .timedOut => 110

/-- Why a controller was not attached, or a read not done. -/
inductive Failure where
  /-- The bank's descriptor names no generation. -/
  | unsupported
  /-- No descriptor goes by the given name. -/
  | unknownDevice
  /-- The clocks were refused. -/
  | clockFailure
  /-- Asserting or releasing the reset line was refused. -/
  | resetFailure
  /-- The sideband did not carry out its command in time. -/
  | sidebandTimeout
  /-- A read cycle did not complete in time. -/
  | pollTimeout
  /-- A word's quality value is a fault. -/
  | integrityFault
  /-- The request lies beyond the bank, or cannot be addressed. -/
  | outOfRange
  /-- There was no memory for the words of the request. -/
  | allocationFailure
  /-- More bytes were asked for than the buffer holds. -/
  | invalidLength
  deriving DecidableEq, Repr

namespace Failure

/-- The text of a failure. -/
def message : Failure → String
  | unsupported => "no read strategy for this otp variant"
  | unknownDevice => "failed to get match data"
  | clockFailure => "failed to prepare/enable clks"
  | resetFailure => "failed to reset otp phy"
  | sidebandTimeout => "timeout during ecc_enable"
  | pollTimeout => "timeout during read setup"
  | integrityFault => "ecc check error during read setup"
  | outOfRange => "offset beyond the end of the otp bank"
  | allocationFailure => "failed to allocate read buffer"
  | invalidLength => "length exceeds buffer"

/-- The code of a failure. A request out of range shares its code with a lack of
memory. -/
def code : Failure → StatusCode
  | unsupported | unknownDevice | invalidLength => .invalidArgument
  | clockFailure | resetFailure | integrityFault => .inputOutput
  | sidebandTimeout | pollTimeout => .timedOut
  | outOfRange | allocationFailure => .outOfMemory

/-- The status of a failure: its code's number, negated. -/
def status (f : Failure) : Int := -(f.code.number : Int)

/-- A failure's status is never mistaken for success. -/
theorem status_neg (f : Failure) : f.status < 0 := by
  cases f <;> decide

end Failure

end FuseBank
