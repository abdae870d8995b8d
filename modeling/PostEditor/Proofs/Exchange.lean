import PostEditor.Dispatch
import PostEditor.Proofs.Calls

namespace PostEditor

/-- A completer with its requests on their way, and the field it works on. -/
structure Exchange (β : Type) where
  dispatch : Dispatch
  field : β

/-- A call of the completer, whose request is due to be sent at some time; or the end of the wait or of the fetch that
stands at an index. -/
inductive Move (β : Type)
  | call (call : Call β) (due : Nat)
  | waitOver (index number : Nat)
  | fetchOver (index : Nat) (answer : Except Failure (List Candidate))

structure Progress (β : Type) where
  exchange : Exchange β
  reports : List (Report (Editor β) Answer)
  started : List Sent

namespace Exchange

variable {β : Type} [TextField β]

def editor (x : Exchange β) : Editor β := ⟨x.dispatch.completer, x.field⟩

def called (x : Exchange β) (r : Report (Editor β) Answer) (due : Nat) : Exchange β :=
  let d := { x.dispatch with completer := r.state.completer }
  match r.result.request? with
  | none => ⟨d, r.state.field⟩
  | some request => ⟨d.wait request due, r.state.field⟩

def move (x : Exchange β) : Move β → Progress β
  | .call a due => ⟨x.called (x.editor.call a) due, [x.editor.call a], []⟩
  | .waitOver index number =>
    match x.dispatch.waiting[index]? with
    | none => ⟨x, [], []⟩
    | some w =>
      let (sent, dispatch) := x.dispatch.fire w number
      ⟨⟨dispatch, x.field⟩, [], sent.toList⟩
  | .fetchOver index answer =>
    match x.dispatch.sent[index]? with
    | none => ⟨x, [], []⟩
    | some s =>
      let r := x.dispatch.answered s answer
      ⟨⟨r.state, x.field⟩, [(r.answer .flag).into fun d => ⟨d.completer, x.field⟩], []⟩

def run (x : Exchange β) : List (Move β) → Progress β
  | [] => ⟨x, [], []⟩
  | m :: rest =>
    let first := x.move m
    let later := run first.exchange rest
    ⟨later.exchange, first.reports ++ later.reports, first.started ++ later.started⟩

theorem run_append (x : Exchange β) (moves rest : List (Move β)) :
    x.run (moves ++ rest) =
      ⟨((x.run moves).exchange.run rest).exchange,
        (x.run moves).reports ++ ((x.run moves).exchange.run rest).reports,
        (x.run moves).started ++ ((x.run moves).exchange.run rest).started⟩ := by
  induction moves generalizing x with
  | nil => rfl
  | cons m moves ih => simp [run, ih]

theorem run_append_singleton (x : Exchange β) (moves : List (Move β)) (m : Move β) :
    x.run (moves ++ [m]) =
      ⟨((x.run moves).exchange.move m).exchange,
        (x.run moves).reports ++ ((x.run moves).exchange.move m).reports,
        (x.run moves).started ++ ((x.run moves).exchange.move m).started⟩ := by
  rw [run_append]
  simp [run]

theorem exists_move_of_mem_started {x : Exchange β} {moves : List (Move β)} {s : Sent}
    (h : s ∈ (x.run moves).started) :
    ∃ earlier m later, moves = earlier ++ m :: later ∧
      s ∈ ((x.run earlier).exchange.move m).started := by
  induction moves generalizing x with
  | nil => simp [run] at h
  | cons m rest ih =>
    rcases List.mem_append.mp h with hm | hr
    · exact ⟨[], m, rest, rfl, hm⟩
    · obtain ⟨earlier, m', later, rfl, hs⟩ := ih hr
      exact ⟨m :: earlier, m', later, rfl, hs⟩

theorem move_exists_calls (x : Exchange β) (m : Move β) :
    ∃ calls, (x.move m).exchange.editor = x.editor.after calls ∧
      (x.move m).reports = x.editor.history calls := by
  cases m with
  | call a due =>
    refine ⟨[a], ?_, rfl⟩
    simp only [move, called]
    split <;> rfl
  | waitOver index number =>
    refine ⟨[], ?_, ?_⟩
    · simp only [move]
      split
      next => rfl
      next w _ =>
        simp only [Dispatch.fire]
        split <;> rfl
    · simp only [move]
      split <;> rfl
  | fetchOver index answer =>
    simp only [move]
    split
    next => exact ⟨[], rfl, rfl⟩
    next s _ => exact ⟨[.lookupAnswer s.request.ticket answer], rfl, rfl⟩

/-- To its completer a run is nothing but calls, those that end a fetch among them. -/
theorem run_exists_calls (x : Exchange β) (moves : List (Move β)) :
    ∃ calls, (x.run moves).exchange.editor = x.editor.after calls ∧
      (x.run moves).reports = x.editor.history calls := by
  induction moves generalizing x with
  | nil => exact ⟨[], rfl, rfl⟩
  | cons m rest ih =>
    obtain ⟨first, hfirst, hreports⟩ := x.move_exists_calls m
    obtain ⟨later, hlater, hlaterReports⟩ := ih (x.move m).exchange
    refine ⟨first ++ later, ?_, ?_⟩
    · rw [Editor.after_append, ← hfirst]
      exact hlater
    · rw [Editor.history_append, ← hfirst, ← hreports, ← hlaterReports]
      rfl

end Exchange

end PostEditor
