import PostEditor.Node
import PostEditor.Page

namespace PostEditor

inductive Tool
  | markup (markup : Markup)
  | mention

def toolbar : List (String × String × Tool) :=
  [("Bold", "B", .markup .bold), ("Italic", "I", .markup .italic),
   ("Strikethrough", "S", .markup .strike), ("Code", "</>", .markup .code),
   ("Link", "🔗", .markup .link), ("Image", "🖼", .markup .image),
   ("Mention", "@", .mention)]

structure ItemView where
  className : Text
  avatarStyle : Text
  nickname : Text
  deriving DecidableEq, Repr

structure PopupView where
  className : Text
  style : Text
  items : List ItemView
  error : Option Text
  deriving DecidableEq, Repr

namespace ItemView

def pictureStyle (c : Candidate) : Text :=
  "background-image: url(\x27".toList ++ c.avatar ++ "\x27)".toList

def ofCandidate (c : Candidate) (highlighted : Bool) : ItemView :=
  ⟨if highlighted then "user-list__user active".toList else "user-list__user".toList,
    pictureStyle c, c.shown⟩

end ItemView

def Drawn.view (d : Drawn) : PopupView :=
  let top := if d.top < 0 then '-' :: Text.ofNat d.top.natAbs else Text.ofNat d.top.natAbs
  ⟨"mentioned-list show".toList, "top: ".toList ++ top ++ "px;".toList,
    d.popup.candidates.mapIdx fun i c => .ofCandidate c (d.popup.highlighted == some i),
    d.popup.error⟩

namespace Page

def postLabel (p : Page) : Text := if p.posting then "Posting...".toList else "Post".toList

def uploadLabel (p : Page) : Text :=
  if p.uploading then "Uploading...".toList else "Attach media".toList

def uploadClass (p : Page) : Text := if p.uploading then "upload uploading".toList else "upload".toList

def tool? (title : Text) : Option Tool :=
  (toolbar.find? (·.1.toList == title)).map (·.2.2)

def useTool : Tool → PageM Unit
  | .markup markup => format markup
  | .mention => toggleMention

end Page

namespace PageView

def element (tag : String) (attributes : List (String × String)) (children : List Node) : Node :=
  .element tag (attributes.map fun (name, value) => (name, value.toList)) children

def disabled (off : Bool) : List (String × Text) := if off then [("disabled", [])] else []

def toolButton (title sign : String) : Node :=
  element "button" [("class", "composer-tool"), ("title", title), ("type", "button")]
    [.text sign.toList]

def popup (v : PopupView) : Node :=
  let item (i : ItemView) := Node.element "div" [("class", i.className)]
    [.element "div" [("class", "avatar".toList), ("style", i.avatarStyle)] [],
     element "div" [("class", "info")] [element "div" [("class", "nickname")] [.text i.nickname]]]
  let failure := v.error.toList.map fun e => element "div" [("class", "mentioned-list-error")] [.text e]
  .element "div" [("class", v.className), ("id", "mentioned-list".toList), ("style", v.style)]
    (element "div" [("class", "mentioned-list-content")] (v.items.map item) :: failure)

def field (p : Page) : Node :=
  element "div" [("class", "composer-field"), ("style", "position: relative;")]
    (element "textarea" [("id", "text"), ("name", "text"), ("placeholder", "What\x27s on your mind?")] [] ::
      (p.drawn.map fun d => popup d.view).toList)

def postForm (p : Page) : Node :=
  .element "form"
    [("action", p.settings.postUrl), ("id", "twtForm".toList), ("method", "post".toList)]
    [element "div" [("class", "composer-toolbar")]
       (toolbar.map fun (title, sign, _) => toolButton title sign),
     field p,
     element "input" [("id", "replaceTwt"), ("name", "hash"), ("type", "hidden")] [],
     .element "button" (disabled p.posting ++ [("id", "post".toList), ("type", "submit".toList)])
       [.text p.postLabel]]

def uploadForm (p : Page) : Node :=
  .element "form"
    [("action", p.settings.uploadUrl), ("enctype", "multipart/form-data".toList),
     ("id", "uploadForm".toList), ("method", "post".toList)]
    [.element "label" [("class", p.uploadClass)]
       [.text p.uploadLabel,
        .element "input"
          ([("accept", "image/*,audio/*,video/*".toList)] ++ disabled p.uploading ++
            [("id", "uploadMedia".toList), ("name", "media_file".toList), ("type", "file".toList)])
          []]]

end PageView

/-- All that the page draws. -/
def Page.view (p : Page) : Node :=
  PageView.element "div" [("class", "composer")] [PageView.postForm p, PageView.uploadForm p]

end PostEditor
