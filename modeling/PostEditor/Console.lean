import PostEditor.Characters
import PostEditor.Event
import PostEditor.LogFilter

namespace PostEditor

/-- A detail of an event: a text as it is or between quotes, a number, or a truth value. -/
inductive Detail
  | plain (t : Text)
  | quoted (t : Text)
  | number (n : Nat)
  | flag (b : Bool)

def Detail.text : Detail → Text
  | .plain t => t
  | .quoted t => '"' :: t ++ ['"']
  | .number n => Text.ofNat n
  | .flag true => "true".toList
  | .flag false => "false".toList

namespace Event

def level : Event → Level
  | .starting _ => .info
  | .settingsIgnored _ => .warn
  | .applied .. => .trace
  | .mentionOpened _ => .debug
  | .mentionClosed .. => .debug
  | .lookupDropped _ => .debug
  | .lookupFailed _ => .warn
  | .commitRejected _ => .warn
  | .unexpectedReply _ => .warn
  | .malformedReply _ => .warn
  | .lookingUp _ => .debug
  | .uploading _ => .info
  | .uploadFailed _ => .error
  | .prefillIgnored _ => .warn
  | .submitFailed _ => .error

def target : Event → Text
  | .starting _ => "twt_composer".toList
  | .settingsIgnored _ => "twt_composer".toList
  | .applied .. => "twt_composer::editor_core".toList
  | .mentionOpened _ => "twt_composer::mention_list".toList
  | .mentionClosed .. => "twt_composer::mention_list".toList
  | .lookupDropped _ => "twt_composer::mention_list".toList
  | .lookupFailed _ => "twt_composer::mention_list".toList
  | .commitRejected _ => "twt_composer::mention_list".toList
  | .unexpectedReply _ => "twt_composer::lookup".toList
  | .malformedReply _ => "twt_composer::lookup".toList
  | .lookingUp _ => "twt_composer::http".toList
  | .uploading _ => "twt_composer::http".toList
  | .uploadFailed _ => "twt_composer::app".toList
  | .prefillIgnored _ => "twt_composer::app".toList
  | .submitFailed _ => "twt_composer::app".toList

def message : Event → Text
  | .starting _ => "composer starting".toList
  | .settingsIgnored _ => "ignoring composer config".toList
  | .applied .. => "applied transaction".toList
  | .mentionOpened _ => "mention session opened".toList
  | .mentionClosed .. => "mention session closed".toList
  | .lookupDropped _ => "dropping superseded lookup response".toList
  | .lookupFailed _ => "mention lookup failed".toList
  | .commitRejected _ => "mention commit rejected".toList
  | .unexpectedReply _ => "unexpected lookup response shape".toList
  | .malformedReply _ => "malformed lookup response".toList
  | .lookingUp _ => "looking up mention candidates".toList
  | .uploading _ => "uploading media".toList
  | .uploadFailed _ => "media upload failed".toList
  | .prefillIgnored _ => "ignoring malformed prefill event".toList
  | .submitFailed _ => "post submission failed".toList

def details : Event → List (String × Detail)
  | .starting url => [("lookup", .plain url)]
  | .settingsIgnored failure => [("err", .plain failure.message)]
  | .applied label textChanged => [("label", .quoted label), ("text_changed", .flag textChanged)]
  | .mentionOpened anchor => [("anchor", .number anchor)]
  | .mentionClosed anchor reason => [("anchor", .number anchor), ("reason", .plain reason.message)]
  | .lookupDropped ticket => [("ticket", .plain ticket.label)]
  | .lookupFailed failure => [("err", .plain failure.message)]
  | .commitRejected error => [("err", .plain error.message)]
  | .unexpectedReply kind => [("kind", .quoted kind.name)]
  | .malformedReply wording => [("err", .plain wording)]
  | .lookingUp url => [("url", .plain url)]
  | .uploading url => [("url", .plain url)]
  | .uploadFailed failure => [("err", .plain failure.message)]
  | .prefillIgnored wording => [("err", .plain wording)]
  | .submitFailed thrown => [("error", .plain thrown)]

/-- The line of an event: its level in five columns, what happened, and its details. -/
def line (e : Event) : Text :=
  let level := e.level.name
  let details := e.details.flatMap fun (name, d) => ' ' :: name.toList ++ '=' :: d.text
  Text.trimEnd (List.replicate (5 - level.length) ' ' ++ level ++ ' ' :: e.message ++ details)

/-- The names that a filter can ask for: what happened is the detail `message`. -/
def detailNames (e : Event) : List Text := "message".toList :: e.details.map (·.1.toList)

def passes (e : Event) (f : LogFilter) : Bool := f.allows e.target e.detailNames e.level

end Event

end PostEditor
