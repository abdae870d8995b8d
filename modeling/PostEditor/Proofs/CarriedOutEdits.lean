import PostEditor.Proofs.Commit
import PostEditor.Proofs.ExactTransactions
import PostEditor.Proofs.KeyReports

namespace PostEditor

namespace Change

/-- The change that puts back what this one takes from the text. -/
def inverse (c : Change) (t : Text) : Change := ⟨c.start, c.start + c.insert.bytes, t.slice c.start c.stop⟩

variable {c : Change} {t : Text}

theorem inverse_append (s m r insert : Text) :
    inverse ⟨s.bytes, s.bytes + m.bytes, insert⟩ (s ++ m ++ r) = ⟨s.bytes, s.bytes + insert.bytes, m⟩ := by
  rw [inverse, Text.slice_append]

theorem Fits.inverse (h : c.Fits t) : (c.inverse t).Fits (c.applyTo t) := by
  obtain ⟨s, m, r, rfl, hc⟩ := h.exists_split
  rw [hc, inverse_append, applyTo_append]
  exact fits_append s c.insert r m

theorem Fits.inverse_applyTo (h : c.Fits t) : (c.inverse t).applyTo (c.applyTo t) = t := by
  obtain ⟨s, m, r, rfl, hc⟩ := h.exists_split
  rw [hc, inverse_append, applyTo_append, applyTo_append]

end Change

def Event.textChanged? : Event → Option Bool
  | .applied _ changed => some changed
  | _ => none

def Answer.succeeded : Answer → Bool
  | .outcome (.ok _) => true
  | .committed (.ok true) => true
  | _ => false

def Report.textChanged? {σ : Type} (r : Report σ Answer) : Option Bool :=
  match r.result with
  | .outcome (.ok outcome) => some outcome.textChanged
  | .committed (.ok true) => r.log.findSome? Event.textChanged?
  | _ => none

theorem Completer.findSome?_textChanged?_close_log (c : Completer) (reason : CloseReason) :
    (c.close reason).log.findSome? Event.textChanged? = none := by
  cases h : c.session with
  | none => simp [close, h]
  | some s => simp [close, h, Event.textChanged?]

def Action.alwaysFits : Action → Bool
  | .replaceSelection _ _ _ | .format _ | .prefill _ | .appendMediaLink _ => true
  | _ => false

def Draft.inPlace (d : Draft) (insert : Text) : Change :=
  ⟨(selectedText d).start, (selectedText d).stop, insert⟩

namespace Editor

/-- The change that an action asks for, when it edits the draft by a transaction. -/
def change? (e : Editor Draft) : Action → Option Change
  | .apply tr => some tr.change
  | .replaceSelection insert _ _ => some (e.field.inPlace insert)
  | .format (.marks mark _) => some (e.field.inPlace (mark ++ (selectedText e.field).text ++ mark))
  | .format (.template snippet _) => some (e.field.inPlace snippet)
  | .prefill t => some ⟨0, e.field.text.bytes, t⟩
  | .appendMediaLink path => some ⟨e.field.text.bytes, e.field.text.bytes, TextField.mediaLink path⟩
  | .commit index => do
    let s ← e.completer.session
    let x ← s.candidates[index]?
    return ⟨s.anchor, e.field.selection.stop, x.shown⟩
  | _ => none

def performed (e : Editor Draft) (actions : List Action) : Editor Draft :=
  actions.foldl (fun e a => (e.perform a).state) e

/-- The changes that take edits made one after the other back, the last one first. -/
def inverses (e : Editor Draft) : List Action → List Change
  | [] => []
  | a :: rest => inverses (e.perform a).state rest ++ ((e.change? a).map (·.inverse e.field.text)).toList

structure CarriedOut (e : Editor Draft) (a : Action) (c : Change) : Prop where
  change : e.change? a = some c
  fits : c.Fits e.field.text
  text : (e.perform a).state.field.text = c.applyTo e.field.text
  flag : (e.perform a).textChanged? = some (c.applyTo e.field.text != e.field.text)

variable {e : Editor Draft} {a : Action}

theorem carriedOut_of_withApplied {tr : Transaction} (change : e.change? a = some tr.change)
    (edit : e.perform a = e.withApplied (TextField.apply e.field tr))
    (done : (e.perform a).result.succeeded = true) : CarriedOut e a tr.change := by
  cases h : TextField.apply e.field tr with
  | error _ => simp [edit, h, withApplied, Answer.succeeded] at done
  | ok applied =>
    obtain ⟨fits, rfl⟩ := Draft.apply_eq_ok_iff.mp h
    exact ⟨change, fits, by rw [edit, h]; rfl, by rw [edit, h]; rfl⟩

theorem commit_carriedOut {index : Nat} (done : (e.perform (.commit index)).result.succeeded = true) :
    ∃ c, CarriedOut e (.commit index) c := by
  have reported := e.commit_report index
  have answered : e.perform (.commit index) = (e.commit index).answer .committed := rfl
  generalize e.commit index = r at reported answered
  rw [answered] at done
  cases reported with
  | noCandidate => cases done
  | ended => cases done
  | refused => cases done
  | applied session candidate query edit =>
    obtain ⟨fits, rfl⟩ := Draft.apply_eq_ok_iff.mp edit
    refine ⟨_, ?_, fits, by rw [answered]; rfl, ?_⟩
    · simp only [change?, session, Option.bind_eq_bind, Option.bind_some, candidate]
      rfl
    · rw [answered, Report.textChanged?]
      simp only [Report.answer_result, Report.answer_log, List.findSome?_append,
        Completer.findSome?_textChanged?_close_log]
      rfl

theorem exists_carriedOut (done : (e.perform a).result.succeeded = true) : ∃ c, CarriedOut e a c := by
  cases a with
  | apply tr => exact ⟨_, carriedOut_of_withApplied rfl rfl done⟩
  | replaceSelection insert policy label => exact ⟨_, carriedOut_of_withApplied rfl rfl done⟩
  | prefill t => exact ⟨_, carriedOut_of_withApplied rfl rfl done⟩
  | appendMediaLink path => exact ⟨_, carriedOut_of_withApplied rfl rfl done⟩
  | format markup =>
    cases markup with
    | marks mark label => exact ⟨_, carriedOut_of_withApplied rfl rfl done⟩
    | template snippet label => exact ⟨_, carriedOut_of_withApplied rfl rfl done⟩
  | commit index => exact commit_carriedOut done
  | _ => cases done

theorem withApplied_succeeded {r : Except EditError (Applied Draft)} (h : ∃ applied, r = .ok applied) :
    (e.withApplied r).result.succeeded = true := by
  obtain ⟨applied, rfl⟩ := h
  rfl

theorem perform_succeeds (always : a.alwaysFits = true) : (e.perform a).result.succeeded = true := by
  cases a with
  | replaceSelection insert policy label =>
    exact withApplied_succeeded (e.field.replaceSelection_succeeds insert policy label)
  | format markup => exact withApplied_succeeded (e.field.format_succeeds markup)
  | prefill t => exact withApplied_succeeded (e.field.prefill_succeeds t)
  | appendMediaLink path => exact withApplied_succeeded (e.field.appendMediaLink_succeeds path)
  | _ => cases always

@[simp] theorem run_nil (e : Editor Draft) : e.run [] = [] := rfl

@[simp] theorem run_cons (e : Editor Draft) (a : Action) (rest : List Action) :
    e.run (a :: rest) = e.perform a :: (e.perform a).state.run rest := rfl

@[simp] theorem performed_nil (e : Editor Draft) : e.performed [] = e := rfl

@[simp] theorem performed_cons (e : Editor Draft) (a : Action) (rest : List Action) :
    e.performed (a :: rest) = (e.perform a).state.performed rest := rfl

theorem performed_append (e : Editor Draft) (first rest : List Action) :
    e.performed (first ++ rest) = (e.performed first).performed rest :=
  List.foldl_append

theorem run_append (e : Editor Draft) (first rest : List Action) :
    e.run (first ++ rest) = e.run first ++ (e.performed first).run rest := by
  induction first generalizing e with
  | nil => rfl
  | cons a first ih =>
    simp only [List.cons_append, run_cons, performed_cons]
    rw [ih]

end Editor

end PostEditor
