import PostEditor.Proofs.FieldFollowing

namespace PostEditor

namespace Editor

open Completer

section

variable {β : Type}

def AskedLast (h : List (Report (Editor β) Answer)) (c : Completer) : Prop :=
  ∀ s, c.session = some s → ∃ r, (requests h).getLast? = some r ∧ c.isCurrent r.ticket = true ∧
    r.query = asked s.query

theorem AskedLast.step {h : List (Report (Editor β) Answer)} {c : Completer}
    {q : Report (Editor β) Answer} (hc : AskedLast h c)
    (hs : Step c q.result.request? q.state.completer) : AskedLast (h ++ [q]) q.state.completer := by
  unfold AskedLast
  rw [requests_append_singleton]
  generalize q.result.request? = r at hs ⊢
  generalize q.state.completer = c' at hs ⊢
  have current := fun t => (hs.isCurrent_iff t).mpr
  cases hs with
  | opened anchor =>
    intro s hs
    cases hs
    exact ⟨(c.tickets.issue none).1, by simp, current _ (Or.inl rfl), rfl⟩
  | @asked s query session changed =>
    intro t ht
    cases ht
    exact ⟨(c.tickets.issue (asked query)).1, by simp, current _ (Or.inl rfl), rfl⟩
  | closed =>
    intro s hs
    cases hs
  | @shown s shown session anchor query =>
    intro t ht
    cases ht
    obtain ⟨r, hr, hi, hq⟩ := hc s session
    exact ⟨r, by simpa using hr, current _ (Or.inr ⟨rfl, rfl, hi⟩), by rw [query]; exact hq⟩
  | stayed => simpa [AskedLast] using hc

theorem after_askedLast [TextField β] (trigger : Char) (b : β) (calls : List (Call β)) :
    AskedLast ((⟨{ trigger }, b⟩ : Editor β).history calls)
      ((⟨{ trigger }, b⟩ : Editor β).after calls).completer := by
  refine history_induction (P := AskedLast) ?_ (fun _ _ _ hc hs => hc.step hs) calls
  intro s hs
  cases hs

end

/-- From a look at a draft until the draft changes, an open mention stands where the selection is, its query is the text
there, and the last request is current and asks for it. -/
theorem open_mention_follows_draft (trigger : Char) (d : Draft) (earlier later : List (Call Draft))
    (look : Call Draft) (hl : look.looks = true) (hr : ∀ a ∈ later, a.rests = true) :
    let calls := earlier ++ look :: later
    let e := (⟨{ trigger }, d⟩ : Editor Draft).after calls
    let h := (⟨{ trigger }, d⟩ : Editor Draft).history calls
    ∀ s, e.completer.session = some s →
      let query := e.field.text.slice s.anchor e.field.selection.stop
      InMention e.field s.anchor trigger ∧ s.query = query ∧
        ∃ r, (requests h).getLast? = some r ∧ e.completer.isCurrent r.ticket = true ∧
          r.query = if query = [] then none else some query := by
  intro calls e h s hs query
  have follows : e.completer.Follows e.field := by
    show ((_ : Editor Draft).after calls).completer.Follows _
    simp only [e, calls, after_append, after_cons]
    exact after_follows_of_rests hr (call_follows_of_looks hl)
  have asked : AskedLast h e.completer := after_askedLast trigger d calls
  obtain ⟨hm, hq⟩ := follows s hs
  obtain ⟨r, hlast, hi, hr⟩ := asked s hs
  rw [show e.completer.trigger = trigger from after_trigger _ calls] at hm
  refine ⟨hm, hq, r, hlast, hi, ?_⟩
  rw [hr, hq]
  rfl

theorem open_mention_follows_draft_beyond_ascii :
    let earlier : List (Call Draft) := [.toggle, .edit ⟨['@', 'ñ', 'x'], ⟨1, 3⟩⟩]
    let later : List (Call Draft) :=
      [.lookupAnswer ⟨1⟩ (.ok []), .lookupAnswer ⟨2⟩ (.ok [⟨['a'], ['a']⟩]), .key .arrowDown]
    let e := (⟨{}, ⟨['é'], ⟨1, 9⟩⟩⟩ : Editor Draft).after (earlier ++ .input .other :: later)
    let h := (⟨{}, ⟨['é'], ⟨1, 9⟩⟩⟩ : Editor Draft).history (earlier ++ .input .other :: later)
    (Call.input .other : Call Draft).looks = true ∧ (∀ a ∈ later, a.rests = true) ∧
      e.completer.session = some ⟨1, ['ñ'], [⟨['a'], ['a']⟩], some 0, none⟩ ∧
      InMention e.field 1 '@' ∧
      ∃ r, (requests h).getLast? = some r ∧ e.completer.isCurrent r.ticket = true ∧
        r.query = some ['ñ'] := by
  intro earlier later e h
  have hl : (Call.input .other : Call Draft).looks = true := rfl
  have hr : ∀ a ∈ later, a.rests = true := by simp [later, Call.rests]
  have hs : e.completer.session = some ⟨1, ['ñ'], [⟨['a'], ['a']⟩], some 0, none⟩ := by decide
  obtain ⟨hm, _, r, hlast, hi, hq⟩ := open_mention_follows_draft '@' _ earlier later _ hl hr _ hs
  exact ⟨hl, hr, hs, hm, r, hlast, hi, hq.trans (by decide)⟩

end Editor

end PostEditor
