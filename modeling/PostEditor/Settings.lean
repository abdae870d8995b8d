import PostEditor.Failure
import PostEditor.Record

namespace PostEditor

structure Settings where
  lookupUrl : Text := "/lookup".toList
  uploadUrl : Text := "/upload".toList
  postUrl : Text := "/post".toList
  debounce : Nat := 300
  trigger : Char := '@'
  logFilter : Text := "info".toList
  deriving DecidableEq, Repr

namespace Settings

/-- The names of the settings in a JSON text, in the order of the array form. -/
def shape : RecordShape Settings where
  fields := [
    .scalar "lookup_url" Json.text? fun s url => { s with lookupUrl := url },
    .scalar "upload_url" Json.text? fun s url => { s with uploadUrl := url },
    .scalar "post_url" Json.text? fun s url => { s with postUrl := url },
    .scalar "debounce_ms" Json.word? fun s n => { s with debounce := n },
    .scalar "trigger" Json.char? fun s c => { s with trigger := c },
    .scalar "log_filter" Json.text? fun s filter => { s with logFilter := filter }]
  initial := {}
  complete := false

def ofText (t : Text) : Except ReadError Settings := shape.ofText t

/-- The settings of a page, which may have no settings text, and the problem with that text. -/
def ofPage (raw : Option Text) : Settings × Option ReadError :=
  match raw.map ofText with
  | none => ({}, none)
  | some (.ok settings) => (settings, none)
  | some (.error problem) => ({}, some problem)

end Settings

end PostEditor
