/-
ScriptHooks.Hook.Event — the events of the host that scripts may subscribe to, and
the typed results of those whose scripts answer a question.

Events are known by their names; a name that is none of theirs is refused with a
message that lists them all. Most events only tell that something happened. Two ask
scripts for an answer, of which the form is given here with what is assumed where a
script leaves parts of it out.
-/
import ScriptHooks.Json.Decode

namespace ScriptHooks

/-- What can happen in the host. -/
inductive HookEvent
  | reservationConfirmed
  | reservationExpired
  | reservationCancelled
  | ticketAssigned
  | ticketCancelled
  | ticketCheckedIn
  | waitingQueueSubscribed
  /-- Scripts may supply the invoice number. -/
  | invoiceGeneration
  /-- Scripts decide whether a tax id is acceptable. -/
  | taxIdNumberValidation
  | eventCreated
  | eventStatusChange
  | userSignedUp
  | pdfGeneration
  | webApiHook
  deriving Repr, DecidableEq

namespace HookEvent

def all : List HookEvent := [
  reservationConfirmed, reservationExpired, reservationCancelled, ticketAssigned,
  ticketCancelled, ticketCheckedIn, waitingQueueSubscribed, invoiceGeneration,
  taxIdNumberValidation, eventCreated, eventStatusChange, userSignedUp, pdfGeneration, webApiHook]

def name : HookEvent → String
  | reservationConfirmed => "RESERVATION_CONFIRMED"
  | reservationExpired => "RESERVATION_EXPIRED"
  | reservationCancelled => "RESERVATION_CANCELLED"
  | ticketAssigned => "TICKET_ASSIGNED"
  | ticketCancelled => "TICKET_CANCELLED"
  | ticketCheckedIn => "TICKET_CHECKED_IN"
  | waitingQueueSubscribed => "WAITING_QUEUE_SUBSCRIBED"
  | invoiceGeneration => "INVOICE_GENERATION"
  | taxIdNumberValidation => "TAX_ID_NUMBER_VALIDATION"
  | eventCreated => "EVENT_CREATED"
  | eventStatusChange => "EVENT_STATUS_CHANGE"
  | userSignedUp => "USER_SIGNED_UP"
  | pdfGeneration => "PDF_GENERATION"
  | webApiHook => "WEB_API_HOOK"

def ofName? (name : String) : Option HookEvent := all.find? fun event => event.name == name

def index (event : HookEvent) : Nat := all.idxOf event

def unknownMessage (name : String) : String := "unknown extension event '" ++ name ++ "'"

def decode : Json.Decoder HookEvent :=
  Json.Node.variant (all.map fun event => (event.name, event))

end HookEvent

open Json Json.Node

/-- What scripts answer when an invoice is generated. -/
structure InvoiceGeneration where
  invoiceNumber : Option String := none
  deriving Repr, DecidableEq

namespace InvoiceGeneration

def toJson (answer : InvoiceGeneration) : Json :=
  .ofEntries [("invoiceNumber", .orNull (answer.invoiceNumber.map .string))]

/-- In a list the invoice number must be there, in an object it may be absent. -/
def decode (node : Node) : Except Complaint InvoiceGeneration :=
  let field := fun defaulted : Bool =>
    ({ name := "invoiceNumber", aliases := [], defaulted := defaulted,
       store := fun node _ => (optional string node).map (⟨·⟩) } : FieldRule InvoiceGeneration)
  match node with
  | .array .. => record (title "InvoiceGeneration") [field false] {} node
  | _ => record (title "InvoiceGeneration") [field true] {} node

end InvoiceGeneration

/-- What scripts answer about a tax id. -/
structure TaxIdValidation where
  valid : Bool := true
  reason : Option String := none
  deriving Repr, DecidableEq

namespace TaxIdValidation

def toJson (answer : TaxIdValidation) : Json :=
  .ofEntries [("valid", .bool answer.valid), ("reason", .orNull (answer.reason.map .string))]

/-- The verdict must be there, a reason need not. -/
def decode : Decoder TaxIdValidation :=
  record (title "TaxIdValidation")
    [required "valid" bool fun v r => { r with valid := v },
      withDefault "reason" [] (optional string) fun v r => { r with reason := v }] {}

end TaxIdValidation

end ScriptHooks
