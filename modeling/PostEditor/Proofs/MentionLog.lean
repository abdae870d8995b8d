import PostEditor.Proofs.CallLogs

namespace PostEditor

namespace Editor

variable {e : Editor Draft} {a : Call Draft} {r : Report (Editor Draft) Answer}

/-- The log tells in turn of mentions that have been opened and then closed at the same anchor, and at its end of the
one that is open. -/
def TellsMentions (log : List Event) (anchor? : Option Nat) : Prop :=
  ∃ ended : List (Nat × CloseReason), log.filter Event.tellsMention =
    ended.flatMap (fun m => [.mentionOpened m.1, .mentionClosed m.1 m.2]) ++ (anchor?.map .mentionOpened).toList

theorem CallLog.tellsMentions (h : CallLog e a r) {log : List Event}
    (before : TellsMentions log e.completer.anchor?) : TellsMentions (log ++ r.log) r.state.completer.anchor? := by
  obtain ⟨ended, told⟩ := before
  unfold TellsMentions
  rw [List.filter_append, told]
  cases h with
  | aside log after edits =>
    have nothing : r.log.filter Event.tellsMention = [] := by
      rw [List.filter_eq_nil_iff]
      intro event h
      simp [(log event h).1]
    rw [nothing, List.append_nil, after]
    exact ⟨ended, rfl⟩
  | opened before log after edits =>
    rw [before, log, after]
    exact ⟨ended, by simp [Event.tellsMention]⟩
  | inserted before log after commits inserts =>
    rw [before, log, after]
    exact ⟨ended, by simp [Event.tellsMention]⟩
  | @closed p reason before log after edits =>
    rw [before, log, after]
    exact ⟨ended ++ [(p, reason)], by simp [Event.tellsMention]⟩
  | @committed p changed before log after commits =>
    have only : r.log.filter Event.tellsMention = [.mentionClosed p .committed] := by
      rw [log]
      rfl
    rw [before, only, after]
    exact ⟨ended ++ [(p, .committed)], by simp⟩

theorem TellsMentions.getLast?_eq_iff {log : List Event} {anchor? : Option Nat} (h : TellsMentions log anchor?)
    (p : Nat) : anchor? = some p ↔ (log.filter Event.tellsMention).getLast? = some (.mentionOpened p) := by
  obtain ⟨ended, told⟩ := h
  rw [told]
  cases anchor? with
  | some q => simp
  | none =>
    rcases List.eq_nil_or_concat ended with rfl | ⟨ended, m, rfl⟩
    · simp
    · simp

theorem CallLog.tellsEdit_iff (h : CallLog e a r) :
    (∃ label changed, .applied label changed ∈ r.log) ↔ a.edits r.result = true := by
  cases h with
  | aside log after edits =>
    rw [edits]
    refine ⟨?_, fun edited => (by cases edited)⟩
    rintro ⟨label, changed, told⟩
    cases (log _ told).2
  | opened before log after edits => simp [log, edits]
  | inserted before log after commits inserts => simp [log, Call.edits, inserts]
  | closed before log after edits => simp [log, edits]
  | committed before log after commits => simp [log, Call.edits, commits]

theorem CallLog.log_of_commits (h : CallLog e a r) (commits : a.commits r.result = true) :
    ∃ p changed, e.completer.anchor? = some p ∧
      r.log = [.mentionClosed p .committed, .applied "mention-commit".toList changed] := by
  cases h with
  | aside log after edits => simp [Call.edits, commits] at edits
  | opened before log after edits => simp [Call.edits, commits] at edits
  | inserted before log after not_commits inserts => rw [commits] at not_commits; cases not_commits
  | closed before log after edits => simp [Call.edits, commits] at edits
  | committed before log after commits => exact ⟨_, _, before, log⟩

def logged (h : List (Report (Editor Draft) Answer)) : List Event := h.flatMap (·.log)

theorem history_tellsMentions (trigger : Char) (d : Draft) {calls : List (Call Draft)}
    (h : ∀ a ∈ calls, a.isOpenAt = false) :
    TellsMentions (logged ((⟨{ trigger }, d⟩ : Editor Draft).history calls))
      ((⟨{ trigger }, d⟩ : Editor Draft).after calls).completer.anchor? := by
  induction calls using List.reverseRecOn with
  | nil => exact ⟨[], rfl⟩
  | append_singleton calls a ih =>
    have before := ih fun b hb => h b (List.mem_append_left [a] hb)
    have ha : a.isOpenAt = false := h a (by simp)
    have told := call_callLog ((⟨{ trigger }, d⟩ : Editor Draft).after calls)
      (fun s hs => after_highlightValid rfl hs) ha
    rw [history_append, after_append]
    have log : logged ((⟨{ trigger }, d⟩ : Editor Draft).history calls ++
        ((⟨{ trigger }, d⟩ : Editor Draft).after calls).history [a]) =
      logged ((⟨{ trigger }, d⟩ : Editor Draft).history calls) ++
        (((⟨{ trigger }, d⟩ : Editor Draft).after calls).call a).log := by simp [logged]
    rw [log]
    exact told.tellsMentions before

/-- Unless a call is told where to open one, the log tells of one mention after the other, opened and closed at the same
anchor, and of edits only by commits and inserted triggers. -/
theorem log_tells_each_mention (trigger : Char) (d : Draft) {calls : List (Call Draft)}
    (h : ∀ a ∈ calls, a.isOpenAt = false) :
    let log := logged ((⟨{ trigger }, d⟩ : Editor Draft).history calls)
    let c := ((⟨{ trigger }, d⟩ : Editor Draft).after calls).completer
    (∃ ended : List (Nat × CloseReason), log.filter Event.tellsMention =
        ended.flatMap (fun m => [.mentionOpened m.1, .mentionClosed m.1 m.2]) ++
          (c.anchor?.map .mentionOpened).toList) ∧
      (∀ p, c.anchor? = some p ↔ (log.filter Event.tellsMention).getLast? = some (.mentionOpened p)) ∧
      ∀ (a : Call Draft) (d' : Draft), a.isOpenAt = false →
        let r := (⟨c, d'⟩ : Editor Draft).call a
        ((∃ label changed, .applied label changed ∈ r.log) ↔
            a.commits r.result = true ∨ a.insertsTrigger r.result = true) ∧
          (a.commits r.result = true → ∃ p changed, c.anchor? = some p ∧
            r.log = [.mentionClosed p .committed, .applied "mention-commit".toList changed]) ∧
          ∀ t answer, a = .lookupAnswer t answer → r.result = .flag false → r.log = [.lookupDropped t] := by
  intro log c
  have told : TellsMentions log c.anchor? := history_tellsMentions trigger d h
  refine ⟨told, told.getLast?_eq_iff, ?_⟩
  intro a d' ha r
  have valid : ∀ s, c.session = some s → s.HighlightValid := fun s hs => after_highlightValid rfl hs
  have logs : CallLog ⟨c, d'⟩ a r := call_callLog ⟨c, d'⟩ valid ha
  refine ⟨?_, logs.log_of_commits, ?_⟩
  · rw [logs.tellsEdit_iff, Call.edits, Bool.or_eq_true]
  · rintro t answer rfl passed
    have coherent : c.Coherent := after_coherent trigger d calls
    have result : (c.applyLookup t answer).result = false := Answer.flag.inj passed
    have current : c.tickets.isCurrent t = false := by
      rw [← coherent.isCurrent_eq, ← c.applyLookup_result t answer]
      exact result
    have dropped := Completer.applyLookup_of_not_isCurrent current answer
    exact congrArg Report.log dropped

theorem log_tells_each_mention_beyond_ascii :
    let calls : List (Call Draft) :=
      [.toggle, .edit (.ofText ['é', 'b']), .selectionMoved, .lookupAnswer ⟨1⟩ (.ok []),
        .lookupAnswer ⟨2⟩ (.ok [⟨['ñ'], ['ñ']⟩]), .key .enter, .edit (.ofText ['x', 'é']), .input .insert]
    let e : Editor Draft := ⟨{ trigger := 'é' }, .ofText []⟩
    let c := (e.after calls).completer
    (∀ a ∈ calls, a.isOpenAt = false) ∧
      (logged (e.history calls)).filter Event.tellsMention =
        [.mentionOpened 2, .mentionClosed 2 .committed, .mentionOpened 3] ∧
      c.anchor? = some 3 ∧
      ((⟨c, .ofText []⟩ : Editor Draft).call (.lookupAnswer ⟨2⟩ (.ok []))).log = [.lookupDropped ⟨2⟩] := by
  intro calls e c
  have h : ∀ a ∈ calls, a.isOpenAt = false := by simp [calls, Call.isOpenAt]
  obtain ⟨_, last, calls_log⟩ := log_tells_each_mention 'é' (.ofText []) h
  have opened : c.anchor? = some 3 := (last 3).mpr (by decide)
  obtain ⟨_, _, passed⟩ := calls_log (.lookupAnswer ⟨2⟩ (.ok [])) (.ofText []) rfl
  exact ⟨h, by decide, opened, passed ⟨2⟩ (.ok []) rfl rfl⟩

end Editor

end PostEditor
