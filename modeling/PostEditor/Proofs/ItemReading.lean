import PostEditor.Proofs.RecordSpelling

namespace PostEditor

open Spelling

namespace RecordShape

variable {σ : Type} {shape : RecordShape σ} {b t rest : Text} {seen : List Text}

/-- What stands behind an item of an array: the closing bracket, or a comma and the other items. -/
def BehindItem (vs : List Json) (t rest : Text) : Prop :=
  vs = [] ∧ t = ']' :: rest ∨ ∃ u, OfItems .kept vs u ∧ t = ',' :: (u ++ ']' :: rest)

theorem BehindItem.stops {vs : List Json} (h : BehindItem vs t rest) : Stops t := by
  rcases h with ⟨-, rfl⟩ | ⟨u, -, rfl⟩
  · exact stops_bracket rest
  · exact stops_comma _

theorem exists_first_item {vs : List Json} (h : OfItems .kept vs t) (rest : Text) :
    ∃ v vs' c u behind, vs = v :: vs' ∧ skipBlanks (t ++ ']' :: rest) = c :: (u ++ behind) ∧
      OfPadded .kept v (c :: u) ∧ c ≠ ']' ∧ BehindItem vs' behind rest := by
  cases h with
  | @one v _ value =>
    obtain ⟨c, u, first, stripped, bracket, _⟩ := value.exists_start (']' :: rest)
    exact ⟨v, [], c, u, _, rfl, first, stripped, bracket, .inl ⟨rfl, rfl⟩⟩
  | @more v vs t ts value later =>
    obtain ⟨c, u, first, stripped, bracket, _⟩ := value.exists_start (',' :: (ts ++ ']' :: rest))
    exact ⟨v, vs, c, u, _, rfl, by simpa using first, stripped, bracket, .inr ⟨ts, later, rfl⟩⟩

theorem readItems_closing (optional : shape.complete = false) (blank : Blanks b) (fields : List (RecordField σ))
    (record : σ) : shape.readItems fields seen record (b ++ ']' :: rest) = .ok (record, rest) := by
  cases fields with
  | nil =>
    rw [readItems, readClosing, skipBlanks_append blank, skipBlanks_cons (by decide)]
    rfl
  | cons f fields =>
    rw [readItems, skipBlanks_append blank, skipBlanks_cons (by decide)]
    simp only [finish_eq_ok optional]
    rfl

theorem readItems_first {f : RecordField σ} {c : Char} {u : Text} (first : skipBlanks t = c :: u)
    (bracket : c ≠ ']') (fields : List (RecordField σ)) (record : σ) :
    shape.readItems (f :: fields) [] record t =
      (f.read record (c :: u)).bind fun (record, rest) => shape.readItems fields [f.name] record rest := by
  rw [readItems, first]
  split
  next nothing => cases nothing
  next closing => exact absurd (List.cons.inj closing).1 bracket
  next item =>
    obtain ⟨rfl, rfl⟩ := List.cons.inj item
    rfl

theorem readItems_comma {f : RecordField σ} {c : Char} {u : Text} (blank : Blanks b) (given : seen ≠ [])
    (first : skipBlanks t = c :: u) (bracket : c ≠ ']') (fields : List (RecordField σ)) (record : σ) :
    shape.readItems (f :: fields) seen record (b ++ ',' :: t) =
      (f.read record (c :: u)).bind fun (record, rest) => shape.readItems fields (f.name :: seen) record rest := by
  rw [readItems, skipBlanks_append blank, skipBlanks_cons (by decide)]
  split
  next nothing => cases nothing
  next closing => exact absurd (List.cons.inj closing).1 (by decide)
  next item =>
    obtain ⟨rfl, rfl⟩ := List.cons.inj item
    rw [if_neg given, if_pos rfl, first]
    split
    next closing => exact absurd (List.cons.inj closing).1 bracket
    next => rfl

theorem readItems_behind (optional : shape.complete = false) {give : Text → σ → σ} {vs : List Json}
    {fields : List (RecordField σ)} (takes : List.Forall₂ (fun f v => f.Reads v (give f.name)) fields vs)
    (later : List (RecordField σ)) (behind : BehindItem vs t rest) (blank : Blanks b) (given : seen ≠ [])
    (record : σ) :
    shape.readItems (fields ++ later) seen record (b ++ t) =
      .ok (fields.foldl (fun record f => give f.name record) record, rest) := by
  induction takes generalizing t b seen record with
  | nil =>
    rcases behind with ⟨-, rfl⟩ | ⟨u, items, -⟩
    · exact readItems_closing optional blank later record
    · cases items
  | @cons f v fields vs reads takes ih =>
    rcases behind with ⟨none, -⟩ | ⟨u, items, rfl⟩
    · cases none
    · obtain ⟨v', vs', c, p, behind, same, first, value, bracket, follows⟩ := exists_first_item items rest
      obtain ⟨rfl, rfl⟩ := List.cons.inj same
      obtain ⟨b', blank', read⟩ := reads record value follows.stops
      rw [List.cons_append] at read
      rw [List.cons_append, readItems_comma blank given first bracket, read]
      exact ih follows blank' (List.cons_ne_nil f.name seen) (give f.name record)

theorem ofText_array (optional : shape.complete = false) (give : Text → σ → σ) {vs : List Json}
    {fields later : List (RecordField σ)} (split : shape.fields = fields ++ later)
    (takes : List.Forall₂ (fun f v => f.Reads v (give f.name)) fields vs) (h : (Json.array vs).Spelled t) :
    shape.ofText t = .ok (fields.foldl (fun record f => give f.name record) shape.initial) := by
  cases h with
  | @padded _ b t b' before value after =>
    have items_read : ∃ u, t = '[' :: u ∧ shape.readItems (fields ++ later) [] shape.initial (u ++ b') =
        .ok (fields.foldl (fun record f => give f.name record) shape.initial, b') := by
      cases value with
      | scalar scalar => cases scalar
      | @emptyArray inside blank =>
        cases takes
        exact ⟨_, rfl, by simpa using readItems_closing optional blank later shape.initial⟩
      | @array _ u items =>
        obtain ⟨v, vs, c, p, behind, rfl, first, value, bracket, follows⟩ := exists_first_item items b'
        cases takes with
        | @cons f _ fields _ reads takes =>
          obtain ⟨b, blank, read⟩ := reads shape.initial value follows.stops
          rw [List.cons_append] at read
          refine ⟨_, rfl, ?_⟩
          rw [List.append_assoc, List.singleton_append, List.cons_append, readItems_first first bracket, read]
          exact readItems_behind optional takes later follows blank (List.cons_ne_nil f.name []) _
    obtain ⟨u, rfl, items⟩ := items_read
    rw [ofText, RecordShape.read, List.cons_append, skipBlanks_append before, skipBlanks_cons (by decide)]
    simp only [split, items, bind, Except.bind, readEnd_eq_ok after]

end RecordShape

end PostEditor
