import SettingsRelay.Autofill.Client

/-!
# What form filling asks of a client

Form filling puts its questions to any client. One that supports nothing answers all of them the
same way; the client of a session supports popups, the service of strings and autocompletion.
-/

namespace SettingsRelay

/-- A question to a client. -/
inductive Capability where
  | hasPersonalData
  | hasService
  | stringUnder (key : String)
  | storeString (key value : String)
  | canScanCards
  | isAutocompleteEnabled
  | scanCard
  | confirmSaveCard
  | requestAutocomplete
  | showPopup (bounds : Rect) (direction : TextDirection) (suggestions : List Suggestion)
      (delegate : Option DelegateRef)
  | hidePopup
  /-- Anything that no client supports and that has no answer. -/
  | unsupported

inductive Capability.Result where
  | nothing
  | flag (b : Bool)
  | text (s : Option String)
  /-- What a callback was called with, one entry for each time. -/
  | outcomes (all : List String)

namespace Capability

variable {σ : Type}

/-- The answer of a client that supports nothing. Only a request for autocompletion is answered
through its callback, with a refusal. -/
def unsupportedResult : Capability → Result
  | hasPersonalData | hasService | storeString .. | canScanCards | isAutocompleteEnabled =>
    .flag false
  | stringUnder _ => .text none
  | scanCard | confirmSaveCard => .outcomes []
  | requestAutocomplete => .outcomes ["error_disabled"]
  | showPopup .. | hidePopup | unsupported => .nothing

/-- Puts a question to the client of a session. -/
def ask (c : ClientRef) (question : Capability) : Op σ Result := do
  let w ← get
  let client := w.clients c
  match question with
  | hasService => return .flag client.service.isSome
  | stringUnder key => return .text (client.service.bind fun p => (w.services p).get? key)
  | storeString key value =>
    match client.service with
    | some p =>
      Op.keeping p.object (Service.store p key value)
      return .flag true
    | none => return .flag false
  | isAutocompleteEnabled => return .flag client.saveFormData
  | showPopup bounds direction suggestions delegate =>
    Client.showPopup c bounds direction suggestions delegate
    return .nothing
  | hidePopup =>
    Client.hidePopup c
    return .nothing
  | question => return question.unsupportedResult

end Capability

end SettingsRelay
