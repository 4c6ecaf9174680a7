/-!
# How a call can fail

The exceptions that the modelled functions raise, and the undefined behaviour that the
C++ code would run into. An `mb_exception` is represented by its cause; `what` gives the
text it carries.
-/

namespace MarketBlocks

/-- A call that does not return normally. -/
inductive Fault where
  /-- `mb_exception`: a fill that its account cannot pay for. -/
  | insufficientFunds (asset : String)
  /-- `mb_exception`: a cancellation of an order that is not open. -/
  | orderNotFound (orderId : String)
  /-- Any other `mb_exception`, such as one raised by a strategy or a REST call. -/
  | mbException (message : String)
  /-- `std::out_of_range`, raised by `at`. -/
  | outOfRange
  /-- `std::length_error`, raised by `reserve`. -/
  | lengthError
  /-- An exception of the network, or of reading a message that is not as it should be. -/
  | otherException
  /-- An iterator or pointer dereferenced where nothing is. -/
  | undefined
  deriving DecidableEq, Repr

/-- Whether `catch (const mb_exception&)` catches it. -/
def Fault.isMbException : Fault → Bool
  | .insufficientFunds _ | .orderNotFound _ | .mbException _ => true
  | .outOfRange | .lengthError | .otherException | .undefined => false

/-- The message of an `mb_exception`. -/
def Fault.what : Fault → Option String
  | .insufficientFunds asset => some s!"Insufficient funds ({asset})"
  | .orderNotFound orderId => some s!"Could not find order with id = {orderId}"
  | .mbException message => some message
  | .outOfRange | .lengthError | .otherException | .undefined => none

end MarketBlocks
