import PostEditor.Session

namespace PostEditor

/-- A call of the completer of an editor, or a change of the field that the completer is not told of. -/
inductive Call (β : Type)
  | edit (field : β)
  | openAt (anchor : Nat)
  | close (reason : CloseReason)
  | blur
  | toggle
  | input (kind : InputKind)
  | selectionMoved
  | key (key : Key)
  | commit (index : Nat)
  | highlight (index : Nat)
  | lookupAnswer (ticket : Ticket) (answer : Except Failure (List Candidate))

def Answer.request? : Answer → Option Request
  | .request r => r
  | .toggled (.ok r) => r
  | _ => none

namespace Editor

variable {β : Type} [TextField β]

def call (e : Editor β) : Call β → Report (Editor β) Answer
  | .edit b => ⟨.done, { e with field := b }, []⟩
  | .openAt anchor => e.withCompleter (e.completer.openAt anchor) fun request => .request (some request)
  | .close reason => e.withCompleter (e.completer.close reason) fun _ => .done
  | .blur => e.withCompleter e.completer.blur fun _ => .done
  | .toggle => e.toggle.answer .toggled
  | .input kind => e.withCompleter (e.completer.input e.field kind) .request
  | .selectionMoved => e.withCompleter (e.completer.selectionMoved e.field) .request
  | .key k => (e.key k).answer .key
  | .commit index => (e.commit index).answer .committed
  | .highlight index => ⟨.done, { e with completer := e.completer.highlight index }, []⟩
  | .lookupAnswer t answer => e.withCompleter (e.completer.applyLookup t answer) .flag

def history (e : Editor β) : List (Call β) → List (Report (Editor β) Answer)
  | [] => []
  | a :: rest =>
    let r := e.call a
    r :: history r.state rest

def after (e : Editor β) (calls : List (Call β)) : Editor β :=
  calls.foldl (fun e a => (e.call a).state) e

@[simp] theorem after_nil (e : Editor β) : e.after [] = e := rfl

@[simp] theorem after_cons (e : Editor β) (a : Call β) (rest : List (Call β)) :
    e.after (a :: rest) = (e.call a).state.after rest := rfl

@[simp] theorem history_nil (e : Editor β) : e.history [] = [] := rfl

@[simp] theorem history_cons (e : Editor β) (a : Call β) (rest : List (Call β)) :
    e.history (a :: rest) = e.call a :: (e.call a).state.history rest := rfl

theorem after_append (e : Editor β) (first rest : List (Call β)) :
    e.after (first ++ rest) = (e.after first).after rest :=
  List.foldl_append

theorem history_append (e : Editor β) (first rest : List (Call β)) :
    e.history (first ++ rest) = e.history first ++ (e.after first).history rest := by
  induction first generalizing e with
  | nil => rfl
  | cons a first ih =>
    simp only [List.cons_append, history_cons, after_cons]
    rw [ih]

theorem typeText_exists_calls (e : Editor Draft) (t : Text) :
    ∃ calls, (e.typeText t).state = e.after calls := by
  induction t generalizing e with
  | nil => exact ⟨[], rfl⟩
  | cons c t ih =>
    obtain ⟨calls, h⟩ := ih (e.edited (e.field.typeChar c) .insert).state
    exact ⟨.edit (e.field.typeChar c) :: .input .insert :: calls, h⟩

theorem withApplied_exists_edit (e : Editor Draft) (r : Except EditError (Applied Draft)) :
    ∃ calls, (e.withApplied r).state = e.after calls := by
  cases r with
  | error error => exact ⟨[], rfl⟩
  | ok applied => exact ⟨[.edit applied.field], rfl⟩

/-- What an action leaves is left by a run of calls, too. -/
theorem perform_exists_calls (e : Editor Draft) (a : Action) :
    ∃ calls, (e.perform a).state = e.after calls := by
  cases a with
  | typeText t => exact e.typeText_exists_calls t
  | backspace => exact ⟨[.edit e.field.backspace, .input .delete], rfl⟩
  | input t s kind => exact ⟨[.edit (.takeInput t s), .input kind], rfl⟩
  | inputOnly kind => exact ⟨[.input kind], rfl⟩
  | select s => exact ⟨[.edit (e.field.setSelection s), .selectionMoved], rfl⟩
  | selectionMoved => exact ⟨[.selectionMoved], rfl⟩
  | setSelection s => exact ⟨[.edit (e.field.setSelection s)], rfl⟩
  | selectRange start stop => exact ⟨[.edit (TextField.select e.field start stop)], rfl⟩
  | storeSelection s => exact ⟨[.edit { e.field with selection := s }], rfl⟩
  | takeInput t s => exact ⟨[.edit (.takeInput t s)], rfl⟩
  | apply tr => exact e.withApplied_exists_edit _
  | replaceSelection insert policy label => exact e.withApplied_exists_edit _
  | readSelected => exact ⟨[], rfl⟩
  | prefill t => exact e.withApplied_exists_edit _
  | appendMediaLink path => exact e.withApplied_exists_edit _
  | format markup => exact e.withApplied_exists_edit _
  | key k => exact ⟨[.key k], rfl⟩
  | commit index => exact ⟨[.commit index], rfl⟩
  | highlight index => exact ⟨[.highlight index], rfl⟩
  | blur => exact ⟨[.blur], rfl⟩
  | close reason => exact ⟨[.close reason], rfl⟩
  | toggle => exact ⟨[.toggle], rfl⟩
  | openAt anchor => exact ⟨[.openAt anchor], rfl⟩
  | isCurrent t => exact ⟨[], rfl⟩
  | lookupAnswer t answer => exact ⟨[.lookupAnswer t answer], rfl⟩
  | lookupReply t body wording =>
    exact ⟨[.lookupAnswer t (.ok (LookupReply.candidates body wording).1)], rfl⟩

end Editor

end PostEditor
