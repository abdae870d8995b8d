import PostEditor.Reply
import PostEditor.Proofs.ValueReading
import Mathlib.Data.List.Forall2

namespace PostEditor

/-- The text `t` is `s` without the blanks around it. -/
def Trimmed (s t : Text) : Prop :=
  (∃ before after, s = before ++ t ++ after ∧ (∀ c ∈ before, isBlank c = true) ∧ ∀ c ∈ after, isBlank c = true) ∧
    (∀ c ∈ t.head?, isBlank c = false) ∧ ∀ c ∈ t.getLast?, isBlank c = false

theorem trimEnd_getLast? (s : Text) : ∀ c ∈ (Text.trimEnd s).getLast?, isBlank c = false := by
  intro c last
  obtain ⟨nonempty, rfl⟩ := List.mem_getLast?_eq_getLast last
  exact Bool.eq_false_iff.mpr (List.rdropWhile_last_not isBlank s nonempty)

theorem head?_trimEnd {s : Text} {c : Char} (first : c ∈ (Text.trimEnd s).head?) : c ∈ s.head? := by
  obtain ⟨after, split⟩ := List.rdropWhile_prefix isBlank (l := s)
  rw [← split]
  exact List.mem_head?_append_of_mem_head? first

theorem trim_trimmed (s : Text) : Trimmed s s.trim := by
  refine ⟨⟨s.takeWhile isBlank, (s.dropWhile isBlank).rtakeWhile isBlank, ?_, ?_, ?_⟩, ?_, trimEnd_getLast? _⟩
  · calc s = s.takeWhile isBlank ++ s.dropWhile isBlank := List.takeWhile_append_dropWhile.symm
      _ = s.takeWhile isBlank ++
          ((s.dropWhile isBlank).rdropWhile isBlank ++ (s.dropWhile isBlank).rtakeWhile isBlank) := by
        rw [List.rdropWhile_append_rtakeWhile]
      _ = s.takeWhile isBlank ++ s.trim ++ (s.dropWhile isBlank).rtakeWhile isBlank :=
        (List.append_assoc ..).symm
  · exact fun c hc => List.mem_takeWhile_imp hc
  · exact fun c hc => List.mem_rtakeWhile_imp hc
  · intro c first
    have kept := List.head?_dropWhile_not isBlank s
    rw [Option.mem_def.mp (head?_trimEnd first)] at kept
    simpa using kept

namespace LookupReply

def item : Option Text → Json
  | none => .null
  | some s => .string s

theorem name?_eq_some_iff {v : Json} {name : Option Text} : name? v = some name ↔ v = item name := by
  cases name <;> cases v <;> simp [name?, item]

theorem mapM_name?_eq_some_iff {items : List Json} {names : List (Option Text)} :
    items.mapM name? = some names ↔ items = names.map item := by
  induction items generalizing names with
  | nil => simp [List.mapM_nil, eq_comm]
  | cons v items ih =>
    simp only [List.mapM_cons, Option.bind_eq_bind, Option.bind_eq_some_iff, Option.pure_def, Option.some.injEq,
      name?_eq_some_iff, ih]
    constructor
    · rintro ⟨name, rfl, names, rfl, rfl⟩
      rfl
    · intro h
      cases names with
      | nil => cases h
      | cons name names =>
        obtain ⟨rfl, rfl⟩ := List.cons.inj h
        exact ⟨name, rfl, names, rfl, rfl⟩

theorem names?_items (names : List (Option Text)) :
    names? (.array (names.map item)) = some names.reduceOption := by
  rw [names?, mapM_name?_eq_some_iff.mpr rfl]
  rfl

theorem names?_eq_none {v : Json} (other : ∀ names : List (Option Text), v ≠ .array (names.map item)) :
    names? v = none := by
  cases v with
  | array items =>
    have refused : items.mapM name? = none := by
      refine Option.eq_none_iff_forall_ne_some.mpr fun names read => other names ?_
      rw [mapM_name?_eq_some_iff.mp read]
    rw [names?, refused]
    rfl
  | null | bool | number | string | object => rfl

theorem exists_of_mem_candidates {body wording : Text} {c : Candidate} (mem : c ∈ (candidates body wording).1) :
    ∃ names, c ∈ ofNames names := by
  unfold candidates at mem
  split at mem
  next => cases mem
  next =>
    split at mem
    next names _ => exact ⟨names, mem⟩
    next => cases mem

theorem exists_of_mem_ofNames {names : List Text} {c : Candidate} (mem : c ∈ ofNames names) :
    ∃ s ∈ names, s.trim ≠ [] ∧ c = Candidate.ofName s.trim := by
  simp only [ofNames, List.mem_map, List.mem_filter, Bool.not_eq_true', List.isEmpty_eq_false_iff] at mem
  obtain ⟨_, ⟨⟨s, given, rfl⟩, nonempty⟩, rfl⟩ := mem
  exact ⟨s, given, nonempty, rfl⟩

theorem within_items (names : List (Option Text)) : (Json.array (names.map item)).Within maxDepth := by
  refine .array fun v mem => ?_
  obtain ⟨name, -, rfl⟩ := List.mem_map.mp mem
  cases name with
  | none => exact .null
  | some => exact .string

/-- An array of strings and nulls gives a trimmed candidate for each string that is not blank, however it is spelled.
Anything else gives none and is reported, by its kind or as malformed. -/
theorem candidates_all_or_nothing (body wording : Text) :
    (∀ names : List (Option Text), (Json.array (names.map item)).Spelled body →
      ∃ trimmed, List.Forall₂ Trimmed names.reduceOption trimmed ∧
        candidates body wording = ((trimmed.filter (· ≠ [])).map fun name => ⟨name, name⟩, [])) ∧
    (∀ v : Json, v.Spelled body → v.Within maxDepth → (∀ names : List (Option Text), v ≠ .array (names.map item)) →
      candidates body wording = ([], [.unexpectedReply v.kind])) ∧
    ((¬∃ v : Json, v.Spelled body ∧ v.Within maxDepth) → candidates body wording = ([], [.malformedReply wording])) ∧
    ∀ c ∈ (candidates body wording).1, c.id = c.shown ∧ c.id ≠ [] ∧
      (∀ b ∈ c.id.head?, isBlank b = false) ∧ ∀ b ∈ c.id.getLast?, isBlank b = false := by
  refine ⟨?_, ?_, ?_, ?_⟩
  · intro names spelled
    have read := Json.ofText_eq_ok_iff.mpr ⟨spelled, within_items names⟩
    refine ⟨names.reduceOption.map Text.trim, ?_, ?_⟩
    · exact List.forall₂_map_right_iff.mpr (List.forall₂_same.mpr fun s _ => trim_trimmed s)
    · simp only [candidates, read, names?_items]
      simp [ofNames, Candidate.ofName, ← List.isEmpty_eq_false_iff]
  · intro v spelled within other
    simp only [candidates, Json.ofText_eq_ok_iff.mpr ⟨spelled, within⟩, names?_eq_none other]
  · intro none
    unfold candidates
    split
    next => rfl
    next v read => exact absurd ⟨v, Json.ofText_eq_ok_iff.mp read⟩ none
  · intro c mem
    obtain ⟨names, mem⟩ := exists_of_mem_candidates mem
    obtain ⟨s, _, nonempty, rfl⟩ := exists_of_mem_ofNames mem
    exact ⟨rfl, nonempty, (trim_trimmed s).2⟩

example : candidates " [\"ann\\u0020\", null, \" \", \"\\ud83d\\ude00\", \"ann\"]".toList [] =
    ([⟨"ann".toList, "ann".toList⟩, ⟨['😀'], ['😀']⟩, ⟨"ann".toList, "ann".toList⟩], []) := by cbv

end LookupReply

end PostEditor
