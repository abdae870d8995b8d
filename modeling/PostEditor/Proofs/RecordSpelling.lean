import PostEditor.Proofs.FieldReading
import Mathlib.Data.List.Forall2
import Mathlib.Data.List.Nodup

namespace PostEditor

open Spelling

namespace RecordShape

variable {σ : Type} (shape : RecordShape σ)

def names : List Text := shape.fields.map (·.name)

def known (members : List (Text × Json)) : List (Text × Json) := members.filter (·.1 ∈ shape.names)

/-- The value of a field is kept, that of any other member is only skipped over. -/
def use (name : Text) : Use := if name ∈ shape.names then .kept else .skipped

inductive OfMembers : List (Text × Json) → Text → Prop
  | one {name p t : Text} {v : Json} (named : OfName .kept name p) (value : OfPadded (shape.use name) v t) :
      OfMembers [(name, v)] (p ++ ':' :: t)
  | more {name p t ts : Text} {v : Json} {ms : List (Text × Json)} (named : OfName .kept name p)
      (value : OfPadded (shape.use name) v t) (rest : OfMembers ms ts) :
      OfMembers ((name, v) :: ms) (p ++ ':' :: (t ++ ',' :: ts))

inductive Spelled : List (Text × Json) → Text → Prop
  | empty {b b' b'' : Text} (before : Blanks b) (inside : Blanks b') (after : Blanks b'') :
      Spelled [] (b ++ '{' :: (b' ++ '}' :: b''))
  | members {b t b' : Text} {ms : List (Text × Json)} (before : Blanks b) (members : shape.OfMembers ms t)
      (after : Blanks b') : Spelled ms (b ++ '{' :: (t ++ '}' :: b'))

variable {shape}

theorem use_eq_of_ofPadded {name : Text} {v : Json} {t : Text} (h : OfPadded .kept v t) :
    OfPadded (shape.use name) v t := by
  unfold use
  split
  next => exact h
  next => exact h.skip

theorem OfMembers.of_kept : ∀ {ms : List (Text × Json)} {t : Text},
    Spelling.OfMembers .kept ms t → shape.OfMembers ms t
  | _, _, .one named value => .one named (use_eq_of_ofPadded value)
  | _, _, .more named value rest => .more named (use_eq_of_ofPadded value) (of_kept rest)

theorem spelled_of_spelled {ms : List (Text × Json)} {t : Text} (h : (Json.object ms).Spelled t) :
    shape.Spelled ms t := by
  cases h with
  | padded before value after =>
    cases value with
    | scalar scalar => cases scalar
    | emptyObject inside =>
      simpa using Spelled.empty before inside after
    | object members =>
      simpa using Spelled.members before (OfMembers.of_kept members) after

def note (shape : RecordShape σ) (seen : List Text) (name : Text) : List Text :=
  if name ∈ shape.names then name :: seen else seen

theorem nodup_note {m : Text × Json} {ms : List (Text × Json)} {seen : List Text} :
    ((shape.known (m :: ms)).map Prod.fst ++ seen).Nodup ↔
      ((shape.known ms).map Prod.fst ++ shape.note seen m.1).Nodup := by
  by_cases field : m.1 ∈ shape.names
  · simp only [known, note, field, if_true, List.filter_cons, decide_true, List.map_cons, List.cons_append]
    exact List.perm_middle.symm.nodup_iff
  · simp only [known, note, field, if_false, List.filter_cons, decide_false, Bool.false_eq_true]

theorem count_known {name : Text} (field : name ∈ shape.names) (ms : List (Text × Json)) :
    ((shape.known ms).map Prod.fst).count name = (ms.map Prod.fst).count name := by
  have same : (shape.known ms).map Prod.fst = (ms.map Prod.fst).filter (· ∈ shape.names) := by
    rw [List.filter_map]
    rfl
  rw [same]
  exact List.count_filter (by simpa using field)

theorem field?_eq_none_iff {name : Text} : shape.field? name = none ↔ name ∉ shape.names := by
  simp [field?, names]

theorem mem_names_of_field? {name : Text} {f : RecordField σ} (found : shape.field? name = some f) :
    name ∈ shape.names := by
  by_contra other
  cases (field?_eq_none_iff.mpr other).symm.trans found

/-- The member is read into a record: its field reads it, or there is no such field and the record stays. -/
def Takes (shape : RecordShape σ) (m : Text × Json) (put : σ → σ) : Prop :=
  match shape.field? m.1 with
  | some f => f.Reads m.2 put
  | none => put = id

theorem takes_of_forall₂ (distinct : shape.names.Nodup) (give : Text → σ → σ) {ms : List (Text × Json)}
    (reads : List.Forall₂ (fun f m => f.name = m.1 ∧ f.Reads m.2 (give m.1)) shape.fields ms)
    {m : Text × Json} (mem : m ∈ ms) : shape.Takes m (give m.1) := by
  obtain ⟨f, field, same, read⟩ : ∃ f ∈ shape.fields, f.name = m.1 ∧ f.Reads m.2 (give m.1) := by
    obtain ⟨length, each⟩ := List.forall₂_iff_get.mp reads
    obtain ⟨i, rfl⟩ := List.mem_iff_get.mp mem
    have bound : i.1 < shape.fields.length := by rw [length]; exact i.2
    exact ⟨_, List.get_mem _ ⟨i, bound⟩, each i bound i.2⟩
  unfold Takes
  cases found : shape.field? m.1 with
  | none => exact absurd (same ▸ List.mem_map_of_mem field) (field?_eq_none_iff.mp found)
  | some g =>
    have named : g.name = m.1 := by simpa using List.find?_some found
    have equal : g = f :=
      List.inj_on_of_nodup_map distinct (List.mem_of_find?_eq_some found) field (named.trans same.symm)
    exact equal ▸ read

theorem finish_eq_ok (optional : shape.complete = false) (seen : List Text) (record : σ) :
    shape.finish seen record = .ok record := by
  simp [finish, optional]

end RecordShape

end PostEditor
