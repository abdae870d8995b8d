import PostEditor.Text

namespace PostEditor

inductive EditError
  | invalidRange (start stop length : Nat)
  | notCharBoundary (offset : Nat)
  deriving DecidableEq, Repr

def EditError.message : EditError → Text
  | .invalidRange start stop length =>
    "range ".toList ++ Text.ofNat start ++ "..".toList ++ Text.ofNat stop ++
      " is outside text of length ".toList ++ Text.ofNat length
  | .notCharBoundary offset =>
    "offset ".toList ++ Text.ofNat offset ++ " is not on a character boundary".toList

/-- What can go wrong. What a browser or a reader says about it is kept in its own words. -/
inductive Failure
  | edit (error : EditError)
  | network (url message : Text)
  | status (url : Text) (code : Nat)
  | decode (message : Text)
  | settings (wording : Text)
  | browser (message : Text)
  deriving DecidableEq, Repr

def Failure.message : Failure → Text
  | .edit error => error.message
  | .network url message =>
    "request to ".toList ++ url ++ " failed: ".toList ++ message
  | .status url code => url ++ " responded with HTTP ".toList ++ Text.ofNat code
  | .decode message => "malformed response: ".toList ++ message
  | .settings wording => "invalid composer configuration: ".toList ++ wording
  | .browser message => "browser API unavailable: ".toList ++ message

end PostEditor
