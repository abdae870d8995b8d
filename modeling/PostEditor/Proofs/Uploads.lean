import PostEditor.Proofs.AppendedText
import PostEditor.Proofs.CarriedOutEdits
import PostEditor.Proofs.Deleting
import PostEditor.Proofs.PageExchange

namespace PostEditor

open TextField

/-- The action leaves the text of the draft as it is, whatever the completer does. -/
def Action.sparesText : Action → Bool
  | .typeText _ | .backspace | .input _ _ _ | .takeInput _ _ | .apply _ | .replaceSelection _ _ _ | .prefill _
  | .appendMediaLink _ | .format _ | .key .tab | .key .enter | .commit _ | .toggle => false
  | _ => true

def Action.linked? : Action → Option Text
  | .appendMediaLink path => some path
  | _ => none

namespace Action

theorem linked?_eq_some_iff {a : Action} {path : Text} : a.linked? = some path ↔ a = .appendMediaLink path := by
  cases a <;> simp [linked?]

theorem linked?_of_sparesText {a : Action} (spares : a.sparesText = true) : a.linked? = none := by
  cases a with
  | appendMediaLink path => cases spares
  | _ => rfl

end Action

namespace Editor

variable {e : Editor Draft}

theorem perform_appendMediaLink (e : Editor Draft) (path : Text) :
    let t := e.field.text ++ mediaLink path
    e.perform (.appendMediaLink path) =
      ⟨.outcome (.ok ⟨true, .cursor t.bytes != e.field.selection⟩), ⟨e.completer, ⟨t, .cursor t.bytes⟩⟩,
        [.applied "media-upload".toList true]⟩ := by
  intro t
  simp only [perform, Draft.appendMediaLink_eq_ok, withApplied]
  rfl

theorem key_field_of_sparesText {k : Key} (spares : (Action.key k).sparesText = true) :
    (e.key k).state.field = e.field := by
  unfold key
  split
  next => rfl
  next s _ =>
    cases k with
    | tab | enter => cases spares
    | escape | backspace | other => rfl
    | arrowUp | arrowDown =>
      simp only
      split <;> rfl

theorem perform_text_of_sparesText {a : Action} (spares : a.sparesText = true) :
    (e.perform a).state.field.text = e.field.text := by
  cases a with
  | key k => exact congrArg Draft.text (key_field_of_sparesText spares)
  | inputOnly | select | selectionMoved | setSelection | selectRange | storeSelection | readSelected | highlight
  | blur | close | openAt | isCurrent | lookupAnswer | lookupReply => rfl
  | _ => cases spares

theorem performed_text {actions : List Action} (h : ∀ a ∈ actions, a.sparesText = true ∨ a.linked?.isSome = true) :
    (e.performed actions).field.text = e.field.text ++ (actions.filterMap Action.linked?).flatMap mediaLink := by
  induction actions generalizing e with
  | nil => exact (List.append_nil _).symm
  | cons a rest ih =>
    rw [performed_cons, ih fun b hb => h b (List.mem_cons_of_mem a hb)]
    rcases h a List.mem_cons_self with spares | links
    · rw [perform_text_of_sparesText spares, List.filterMap_cons_none (Action.linked?_of_sparesText spares)]
    · obtain ⟨path, hp⟩ := Option.isSome_iff_exists.mp links
      obtain rfl := Action.linked?_eq_some_iff.mp hp
      rw [List.filterMap_cons_some hp, List.flatMap_cons, e.perform_appendMediaLink path, List.append_assoc]

theorem selectionMoved_after_upload {s : MentionSession} (session : e.completer.session = some s)
    (stands : e.completer.Stands s.anchor e.field) (path : Text) :
    let linked := (e.perform (.appendMediaLink path)).state
    linked.perform .selectionMoved =
      ⟨.request none, ⟨(e.completer.close .whitespace).state, linked.field⟩,
        [.mentionClosed s.anchor .whitespace]⟩ := by
  intro linked
  have completer : linked.completer = e.completer := by simp only [linked, perform_appendMediaLink]
  have appended : Appended e.field linked.field (mediaLink path) := by
    simp only [linked, perform_appendMediaLink]
    exact ⟨rfl, rfl⟩
  have told := Completer.selectionMoved_appended session stands appended (mediaLink_any_isBlank path)
  simp only [perform, withCompleter, completer, told]
  rfl

end Editor

theorem Exchange.called_field {β : Type} [TextField β] (x : Exchange β) (r : Report (Editor β) Answer) (due : Nat) :
    (x.called r due).field = r.state.field := by
  unfold called
  split <;> rfl

namespace Page

theorem refresh_exchange (p : Page) :
    ∃ due, (refresh.run p).2.exchange = p.exchange.called (p.editor.call .selectionMoved) due :=
  ⟨_, called_of_quiet .selectionMoved (settle_quiet (p.dispatch.completer.selectionMoved p.area) p)⟩

/-- The page links a medium at the end of its field, and then tells the completer that the caret has moved. -/
theorem finishUpload_exchange (reply : UploadReply) (p : Page) :
    ∃ area due, Appended p.area area (mediaLink reply.path) ∧
      ((finishUpload (.ok reply)).run p).2.exchange =
        (⟨p.dispatch, area⟩ : Exchange TextArea).called
          ((⟨p.dispatch.completer, area⟩ : Editor TextArea).call .selectionMoved) due := by
  obtain ⟨applied, link, appended⟩ := p.area.appendMediaLink_appended reply.path
  let q := ((settleField (.ok applied)).run p).2
  have settled : q.exchange = ⟨p.dispatch, applied.field⟩ :=
    (report_quiet [applied.event] { p with area := applied.field }).exchange
  obtain ⟨due, moved⟩ := q.refresh_exchange
  refine ⟨applied.field, due, appended, ?_⟩
  have finished : ((finishUpload (.ok reply)).run p).2.exchange = (refresh.run q).2.exchange := by
    have run : ((settleField (appendMediaLink p.area reply.path)).run p).2 = q := by rw [link]
    rw [← run]
    rfl
  have editor : q.editor = ⟨p.dispatch.completer, applied.field⟩ := congrArg Exchange.editor settled
  rw [finished, moved, settled, editor]

theorem never_answered_of_closed {p : Page} {c : Completer} {reason : CloseReason} {t : Ticket}
    (hp : p.dispatch.completer = (c.close reason).state) (ht : t.number ≤ c.tickets.issued)
    (events : List PageEvent) (answer : Except Failure (List Candidate)) :
    ((p.after events).dispatch.completer.applyLookup t answer).result = false := by
  obtain ⟨moves, exchange, _⟩ := p.run_exists_moves events
  obtain ⟨calls, editor, _⟩ := p.exchange.run_exists_calls moves
  rw [← exchange] at editor
  have completer : (p.after events).dispatch.completer = (p.editor.after calls).completer :=
    congrArg Editor.completer editor
  rw [completer]
  exact Editor.never_answered_of_closed hp ht calls answer

theorem finishUpload_appended (reply : UploadReply) (p : Page) :
    Appended p.area ((finishUpload (.ok reply)).run p).2.area (mediaLink reply.path) := by
  obtain ⟨area, due, appended, exchange⟩ := finishUpload_exchange reply p
  have same : ((finishUpload (.ok reply)).run p).2.area = area :=
    (congrArg Exchange.field exchange).trans (Exchange.called_field _ _ due)
  rwa [same]

theorem finishUpload_ends_mention {p : Page} {s : MentionSession} (session : p.dispatch.completer.session = some s)
    (stands : p.dispatch.completer.Stands s.anchor p.area) (reply : UploadReply) :
    ((finishUpload (.ok reply)).run p).2.dispatch =
      { p.dispatch with completer := (p.dispatch.completer.close .whitespace).state } := by
  obtain ⟨area, due, appended, exchange⟩ := finishUpload_exchange reply p
  have told := Completer.selectionMoved_appended session stands appended (mediaLink_any_isBlank reply.path)
  have dispatch := congrArg Exchange.dispatch exchange
  refine dispatch.trans ?_
  simp only [Exchange.called, Editor.call, Editor.withCompleter, told]
  rfl

end Page

/-- An upload appends its link, wherever the selection is, and several append theirs in order. A mention that stands is
closed by the move of the caret, and no ticket issued by then is answered, also on a page. -/
theorem uploads_append_and_end_mentions (e : Editor Draft) :
    (∀ path,
      let t := e.field.text ++ (" ![](".toList ++ path ++ ") ".toList)
      e.perform (.appendMediaLink path) =
        ⟨.outcome (.ok ⟨true, .cursor t.bytes != e.field.selection⟩), ⟨e.completer, ⟨t, .cursor t.bytes⟩⟩,
          [.applied "media-upload".toList true]⟩) ∧
      (∀ actions, (∀ a ∈ actions, a.sparesText = true ∨ a.linked?.isSome = true) →
        (e.performed actions).field.text = e.field.text ++ (actions.filterMap Action.linked?).flatMap mediaLink) ∧
      (∀ s, e.completer.session = some s → e.completer.Stands s.anchor e.field → ∀ path,
        let linked := (e.perform (.appendMediaLink path)).state
        let told := linked.perform .selectionMoved
        told = ⟨.request none, ⟨(e.completer.close .whitespace).state, linked.field⟩,
            [.mentionClosed s.anchor .whitespace]⟩ ∧
          ∀ t : Ticket, t.number ≤ e.completer.tickets.issued → ∀ later answer,
            ((told.state.after later).completer.applyLookup t answer).result = false) ∧
      ∀ (p : Page) (reply : UploadReply),
        let c := p.dispatch.completer
        let q := ((Page.finishUpload (.ok reply)).run p).2
        Appended p.area q.area (mediaLink reply.path) ∧
          ∀ s, c.session = some s → c.Stands s.anchor p.area →
            q.dispatch = { p.dispatch with completer := (c.close .whitespace).state } ∧
              ∀ t : Ticket, t.number ≤ c.tickets.issued → ∀ events answer,
                ((q.after events).dispatch.completer.applyLookup t answer).result = false := by
  refine ⟨e.perform_appendMediaLink, fun actions h => Editor.performed_text h, ?_, ?_⟩
  · intro s session stands path linked told
    have ended := Editor.selectionMoved_after_upload session stands path
    have closed : told.state.completer = (e.completer.close .whitespace).state :=
      congrArg (fun r : Report (Editor Draft) Answer => r.state.completer) ended
    exact ⟨ended, fun t issued later answer => Editor.never_answered_of_closed closed issued later answer⟩
  · intro p reply c q
    refine ⟨p.finishUpload_appended reply, ?_⟩
    intro s session stands
    have ended := Page.finishUpload_ends_mention session stands reply
    have closed : q.dispatch.completer = (c.close .whitespace).state := congrArg Dispatch.completer ended
    exact ⟨ended, fun t issued events answer => Page.never_answered_of_closed closed issued events answer⟩

theorem uploads_append_and_end_mentions_beyond_ascii :
    let c : Completer := { session := some ⟨3, ['ñ'], [⟨['ñ'], ['x']⟩], some 0, none⟩, tickets := ⟨2, some ⟨2⟩⟩ }
    let e : Editor Draft := ⟨c, ⟨['é', '@', 'ñ', ' ', 'z'], ⟨5, 5⟩⟩⟩
    let actions : List Action := [.appendMediaLink ['ß'], .storeSelection ⟨9, 1⟩, .selectionMoved, .appendMediaLink []]
    let told := (e.perform (.appendMediaLink ['ß'])).state.perform .selectionMoved
    (e.performed actions).field.text = "é@ñ z ![](ß)  ![]() ".toList ∧
      told.log = [.mentionClosed 3 .whitespace] ∧ told.state.completer = { tickets := ⟨2, none⟩ } ∧
      ∀ later answer, ((told.state.after later).completer.applyLookup ⟨2⟩ answer).result = false := by
  intro c e actions told
  obtain ⟨_, links, mentions, _⟩ := uploads_append_and_end_mentions e
  have spares : ∀ a ∈ actions, a.sparesText = true ∨ a.linked?.isSome = true := by decide
  have stands : c.Stands 3 e.field := ⟨by decide, ['ñ'], by decide⟩
  obtain ⟨ended, dropped⟩ := mentions _ rfl stands ['ß']
  refine ⟨(links actions spares).trans (by decide), congrArg Report.log ended, ?_, dropped ⟨2⟩ (by decide)⟩
  exact congrArg (fun r : Report (Editor Draft) Answer => r.state.completer) ended

end PostEditor
