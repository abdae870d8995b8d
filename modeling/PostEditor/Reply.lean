import PostEditor.Event
import PostEditor.Lookup
import PostEditor.Record

namespace PostEditor

namespace LookupReply

def name? : Json → Option (Option Text)
  | .null => some none
  | .string s => some (some s)
  | _ => none

def names? : Json → Option (List Text)
  | .array items => (items.mapM name?).map fun names => names.filterMap id
  | _ => none

/-- A candidate for each name that is not blank, with the blanks around it trimmed. -/
def ofNames (names : List Text) : List Candidate :=
  ((names.map Text.trim).filter fun name => !name.isEmpty).map Candidate.ofName

/-- The candidates in a reply, and what there is to report about it. What cannot be read is worded as `wording`. -/
def candidates (body wording : Text) : List Candidate × List Event :=
  match Json.ofText body with
  | .error _ => ([], [.malformedReply wording])
  | .ok value =>
    match names? value with
    | some names => (ofNames names, [])
    | none => ([], [.unexpectedReply value.kind])

end LookupReply

structure UploadReply where
  path : Text
  deriving DecidableEq, Repr

namespace UploadReply

def shape : RecordShape UploadReply where
  fields := [.scalar "Path" Json.text? fun r path => { r with path := path }]
  initial := ⟨[]⟩
  complete := true

def ofText (t : Text) : Except ReadError UploadReply := shape.ofText t

end UploadReply

end PostEditor
