import PostEditor.Proofs.ScalarReading
import Mathlib.Data.List.DropRight

namespace PostEditor

namespace Spelling

theorem skipBlanks_append {b : Text} (blank : Blanks b) (t : Text) : skipBlanks (b ++ t) = skipBlanks t :=
  List.dropWhile_append_of_pos blank

theorem skipBlanks_cons {c : Char} (hc : isJsonBlank c = false) (t : Text) : skipBlanks (c :: t) = c :: t := by
  simp [skipBlanks, hc]

theorem skipBlanks_comma (t : Text) : skipBlanks (',' :: t) = ',' :: t := rfl

theorem skipBlanks_bracket (t : Text) : skipBlanks (']' :: t) = ']' :: t := rfl

theorem skipBlanks_brace (t : Text) : skipBlanks ('}' :: t) = '}' :: t := rfl

theorem exists_blanks (t : Text) : ∃ b, Blanks b ∧ t = b ++ skipBlanks t :=
  ⟨t.takeWhile isJsonBlank, fun _ hc => List.mem_takeWhile_imp hc, List.takeWhile_append_dropWhile.symm⟩

theorem skipBlanks_skipBlanks (t : Text) : skipBlanks (skipBlanks t) = skipBlanks t :=
  List.dropWhile_idempotent _ t

/-- Behind its blanks the text starts with a character that closes nothing. -/
def Starts (t : Text) : Prop :=
  ∃ b c u, t = b ++ c :: u ∧ Blanks b ∧ isJsonBlank c = false ∧ c ≠ ']' ∧ c ≠ '}'

theorem Starts.skipBlanks {t : Text} (h : Starts t) (rest : Text) :
    ∃ c u, skipBlanks (t ++ rest) = c :: u ∧ c ≠ ']' ∧ c ≠ '}' := by
  obtain ⟨b, c, u, rfl, blank, hc, others⟩ := h
  refine ⟨c, u ++ rest, ?_, others⟩
  rw [List.append_assoc, skipBlanks_append blank, List.cons_append, skipBlanks_cons hc]

theorem Starts.append {t : Text} (h : Starts t) (u : Text) : Starts (t ++ u) := by
  obtain ⟨b, c, v, rfl, blank, hc, others⟩ := h
  exact ⟨b, c, v ++ u, by simp, blank, hc, others⟩

section

variable {use : Use}

theorem OfScalar.exists_cons {v : Json} {t : Text} (h : OfScalar use v t) :
    ∃ c u, t = c :: u ∧ isJsonBlank c = false ∧ c ∉ ['[', ']', '{', '}'] := by
  cases h with
  | null => exact ⟨'n', _, rfl, by decide, by decide⟩
  | @bool b =>
    cases b with
    | true => exact ⟨'t', _, rfl, by decide, by decide⟩
    | false => exact ⟨'f', _, rfl, by decide, by decide⟩
  | string chars => exact ⟨'"', _, rfl, by decide, by decide⟩
  | number numeral =>
    obtain ⟨c, u, rfl, start⟩ := numeral.exists_cons
    have other : c ∉ [' ', '\t', '\n', '\x0d', '[', ']', '{', '}'] := by
      intro mem
      have none : ∀ d ∈ [' ', '\t', '\n', '\x0d', '[', ']', '{', '}'], (d != '-' && !d.isDigit) = true :=
        List.all_eq_true.mp (by decide)
      obtain ⟨sign, digit⟩ := Bool.and_eq_true_iff.mp (none c mem)
      rcases start with rfl | start
      · exact absurd sign (by decide)
      · rw [start] at digit
        cases digit
    simp only [List.mem_cons, List.not_mem_nil, or_false, not_or] at other
    refine ⟨c, u, rfl, ?_, ?_⟩
    · simp [isJsonBlank, other]
    · simp [other]

theorem OfValue.exists_cons {v : Json} {t : Text} (h : OfValue use v t) :
    ∃ c u, t = c :: u ∧ isJsonBlank c = false ∧ c ≠ ']' ∧ c ≠ '}' := by
  cases h with
  | scalar scalar =>
    obtain ⟨c, u, rfl, hc, others⟩ := scalar.exists_cons
    simp only [List.mem_cons, not_or] at others
    exact ⟨c, u, rfl, hc, others.2.1, others.2.2.2.1⟩
  | emptyArray | array => exact ⟨'[', _, rfl, by decide, by decide, by decide⟩
  | emptyObject | object => exact ⟨'{', _, rfl, by decide, by decide, by decide⟩

theorem OfPadded.starts {v : Json} {t : Text} (h : OfPadded use v t) : Starts t := by
  cases h with
  | padded before value after =>
    obtain ⟨c, u, rfl, hc, others⟩ := value.exists_cons
    exact ⟨_, c, u ++ _, rfl, before, hc, others⟩

theorem OfItems.starts {vs : List Json} {t : Text} (h : OfItems use vs t) : Starts t := by
  cases h with
  | one value => exact value.starts
  | more value rest => exact value.starts.append _

theorem OfName.starts {name t : Text} (h : OfName use name t) : Starts t := by
  cases h with
  | padded before chars after =>
    exact ⟨_, '"', _, rfl, before, by decide, by decide, by decide⟩

theorem OfMembers.starts {ms : List (Text × Json)} {t : Text} (h : OfMembers use ms t) : Starts t := by
  cases h with
  | one named value => exact named.starts.append _
  | more named value rest => exact named.starts.append _

variable {fuel depth : Nat}

theorem readValue_skipBlanks (t : Text) : readValue use fuel depth (skipBlanks t) = readValue use fuel depth t := by
  cases fuel with
  | zero => rfl
  | succ fuel => simp only [readValue, skipBlanks_skipBlanks]

theorem readItems_skipBlanks (t : Text) : readItems use fuel depth (skipBlanks t) = readItems use fuel depth t := by
  cases fuel with
  | zero => rfl
  | succ fuel => simp only [readItems, readValue_skipBlanks]

theorem readMembers_skipBlanks (t : Text) :
    PostEditor.readMembers use fuel depth (skipBlanks t) = PostEditor.readMembers use fuel depth t := by
  cases fuel with
  | zero => rfl
  | succ fuel => simp only [PostEditor.readMembers, readName, skipBlanks_skipBlanks]

/-- An array with items is read by reading its items, one level less deep. -/
theorem readValue_items {b t : Text} (blank : Blanks b) (room : ¬(use = .kept ∧ depth = 0)) (start : Starts t)
    (rest : Text) : readValue use (fuel + 1) depth (b ++ '[' :: (t ++ rest)) =
      (readItems use fuel (depth - 1) (t ++ rest)).map fun (items, rest) => (.array items, rest) := by
  obtain ⟨c, u, first, bracket, _⟩ := start.skipBlanks rest
  rw [← readItems_skipBlanks, readValue, skipBlanks_append blank, skipBlanks_cons (by decide)]
  simp only [if_neg room, first]
  split
  next ended => exact absurd (List.cons.inj ended).1 bracket
  next => rfl

theorem readValue_members {b t : Text} (blank : Blanks b) (room : ¬(use = .kept ∧ depth = 0)) (start : Starts t)
    (rest : Text) : readValue use (fuel + 1) depth (b ++ '{' :: (t ++ rest)) =
      (PostEditor.readMembers use fuel (depth - 1) (t ++ rest)).map fun (ms, rest) => (.object ms, rest) := by
  obtain ⟨c, u, first, _, brace⟩ := start.skipBlanks rest
  rw [← readMembers_skipBlanks, readValue, skipBlanks_append blank, skipBlanks_cons (by decide)]
  simp only [if_neg room, first]
  split
  next ended => exact absurd (List.cons.inj ended).1 brace
  next => rfl

theorem readValue_scalar {b t : Text} {c : Char} (blank : Blanks b) (hc : isJsonBlank c = false)
    (other : c ∉ ['[', ']', '{', '}']) :
    readValue use (fuel + 1) depth (b ++ c :: t) = readScalar use (c :: t) := by
  simp only [List.mem_cons, not_or] at other
  obtain ⟨bracket, _, brace, _⟩ := other
  rw [readValue, skipBlanks_append blank, skipBlanks_cons hc]
  split
  next array => exact absurd (List.cons.inj array).1 bracket
  next object => exact absurd (List.cons.inj object).1 brace
  next => rfl

theorem readName_append {name p : Text} (h : OfName use name p) (rest : Text) :
    ∃ b, Blanks b ∧ ReadsAs use (readName use (p ++ rest)) name (b ++ rest) := by
  cases h with
  | @padded b b' name t before chars after =>
    have read := chars.read (b' ++ rest)
    refine ⟨b', after, ?_⟩
    rw [readName, List.append_assoc, skipBlanks_append before, List.append_assoc, List.cons_append,
      List.cons_append, skipBlanks_cons (by decide)]
    exact read

theorem readColon_append {b : Text} (blank : Blanks b) (t : Text) : readColon (b ++ ':' :: t) = .ok t := by
  rw [readColon, skipBlanks_append blank, skipBlanks_cons (by decide)]
  rfl

theorem readEnd_eq_ok {b : Text} (blank : Blanks b) : readEnd b = .ok () := by
  have ended := skipBlanks_append blank []
  rw [List.append_nil] at ended
  rw [readEnd, ended]
  rfl

theorem Stops.blanks_append {b rest : Text} (blank : Blanks b) (stop : Stops rest) : Stops (b ++ rest) := by
  cases b with
  | nil => exact stop
  | cons c b =>
    intro d hd
    obtain rfl := Option.some.inj hd
    exact Or.inl (blank c List.mem_cons_self)

theorem stops_comma (t : Text) : Stops (',' :: t) := by simp [Stops]

theorem stops_bracket (t : Text) : Stops (']' :: t) := by simp [Stops]

theorem stops_brace (t : Text) : Stops ('}' :: t) := by simp [Stops]

theorem room_for_items {vs : List Json} (within : use = .kept → (Json.array vs).Within depth) :
    ¬(use = .kept ∧ depth = 0) ∧ (use = .kept → ∀ v ∈ vs, v.Within (depth - 1)) := by
  refine ⟨?_, ?_⟩
  · rintro ⟨kept, rfl⟩
    cases within kept
  · intro kept
    cases within kept with
    | array inner => exact inner

theorem room_for_members {ms : List (Text × Json)} (within : use = .kept → (Json.object ms).Within depth) :
    ¬(use = .kept ∧ depth = 0) ∧ (use = .kept → ∀ m ∈ ms, m.2.Within (depth - 1)) := by
  refine ⟨?_, ?_⟩
  · rintro ⟨kept, rfl⟩
    cases within kept
  · intro kept
    cases within kept with
    | object inner => exact inner

end

end Spelling

end PostEditor
