import FuseBank.Bracket
import FuseBank.Preparation
import FuseBank.ReadCycle

/-!
# From words to bytes

A planned read is carried out while the clocks run: the user interface is prepared
and taken, the words are fetched, and the requested bytes are delivered. Generation
one stores each byte as it comes, so it has delivered the bytes before a failure;
the others deliver all or nothing.
-/

namespace FuseBank

/-- The bytes that a read has delivered, from the request's first byte on. -/
structure Delivery where
  /-- The bytes. -/
  bytes : List UInt8
  /-- Why they are not all that was planned, if they are not. -/
  failure : Option Failure
  deriving DecidableEq, Repr

/-- Nothing was delivered. -/
def Delivery.failed (failure : Failure) : Delivery := ⟨[], some failure⟩

namespace Generation

/-- What is delivered of the words that were fetched. -/
def deliver (g : Generation) (range : WordRange) (harvest : Harvest) : Delivery :=
  match harvest.failure with
  | none => ⟨range.window harvest.words, none⟩
  | some failure =>
    match g with
    | one => ⟨range.gathered harvest.words, some failure⟩
    | two | three => .failed failure

/-- What ended the row of read cycles ends the delivery. -/
@[simp] theorem failure_deliver (g : Generation) (range : WordRange) (harvest : Harvest) :
    (g.deliver range harvest).failure = harvest.failure := by
  obtain ⟨words, failure⟩ := harvest
  cases failure <;> cases g <;> rfl

/-- Fetches the words of a range and delivers the bytes in them. Generation one stores each
byte as it comes; a plan of it has a word for each byte that is requested
(`length_words_of_plan_one`), so there is a place for every word and a word for every place. -/
def collect (g : Generation) (t : Timing) (range : WordRange) : Program Delivery := do
  let harvest ← gather (g.fetch t) [] range.words
  return g.deliver range harvest

/-- Carries out a planned read, the clocks being on. -/
def execute (g : Generation) (t : Timing) (range : WordRange) : Program Delivery :=
  match g.latch? with
  | none => g.collect t range
  | some latch => do
    match ← latch.prepare t with
    | some failure => return .failed failure
    | none => withUserMode t (g.collect t range)

end Generation

end FuseBank
