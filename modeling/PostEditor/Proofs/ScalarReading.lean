import PostEditor.Proofs.NumberReading

namespace PostEditor

namespace Spelling

variable {use : Use} {rest : Text}

theorem readScalar_of_numberStart {c : Char} (start : c = '-' ∨ c.isDigit = true) (t : Text) :
    readScalar use (c :: t) = (readNumber use (c :: t)).map fun (n, rest) => (.number n, rest) := by
  have other : c ∉ ['"', 'n', 't', 'f'] := by
    intro mem
    simp only [List.mem_cons, List.not_mem_nil, or_false] at mem
    rcases mem with rfl | rfl | rfl | rfl <;> exact absurd start (by decide)
  simp only [List.mem_cons, List.not_mem_nil, or_false, not_or] at other
  obtain ⟨quote, null, true, false⟩ := other
  rw [readScalar, if_pos start]
  · exact quote
  · exact null
  · exact true
  · exact false

theorem OfScalar.read {v : Json} {t : Text} {depth : Nat} (h : OfScalar use v t)
    (within : use = .kept → v.Within depth) (stop : Stops rest) :
    ReadsAs use (readScalar use (t ++ rest)) v rest := by
  cases h with
  | null => exact ⟨.null, by simp [readScalar, readWord, Except.map], fun _ => rfl⟩
  | @bool b => cases b <;> exact ⟨.bool _, by simp [readScalar, readWord, Except.map], fun _ => rfl⟩
  | @number n t numeral =>
    have fits : use = .kept → n.overflows = false := by
      intro kept
      cases within kept with
      | number fits => exact fits
    have small : ¬(use = .kept ∧ n.overflows = true) := fun ⟨kept, large⟩ => by simp [fits kept] at large
    have read : readNumber use (t ++ rest) = .ok (n, rest) := by
      rw [numeral.read stop.noNumberChar, if_neg small]
    obtain ⟨c, t', rfl, start⟩ := numeral.exists_cons
    refine ⟨.number n, ?_, fun _ => rfl⟩
    rw [List.cons_append] at read ⊢
    rw [readScalar_of_numberStart start, read]
    rfl
  | @string s t chars =>
    obtain ⟨s', read, same⟩ := chars.read rest
    refine ⟨.string s', ?_, fun kept => by rw [same kept]⟩
    simp [readScalar, read, Except.map]

theorem eq_append_of_readWord {w t : Text} (h : readWord w t = .ok rest) : t = w ++ rest := by
  induction w generalizing t with
  | nil =>
    cases t with
    | nil => exact Except.ok.inj h
    | cons c t => exact Except.ok.inj h
  | cons c w ih =>
    cases t with
    | nil => cases h
    | cons d t =>
      simp only [readWord] at h
      split at h
      next same => rw [same, ih h, List.cons_append]
      next => cases h

/-- What is read as a scalar spells it. -/
theorem scalar_of_readScalar {t : Text} {v : Json} (h : readScalar .kept t = .ok (v, rest)) :
    ∃ p, t = p ++ rest ∧ OfScalar .kept v p ∧ ∀ depth, v.Within depth := by
  unfold readScalar at h
  split at h
  next => cases h
  next t =>
    obtain ⟨⟨s, rest'⟩, read, made⟩ := map_eq_ok h
    obtain ⟨rfl, rfl⟩ := Prod.mk.inj made
    obtain ⟨p, rfl, chars⟩ := chars_of_readString (by simp) read
    exact ⟨'"' :: p ++ ['"'], by simp, .string chars, fun _ => .string⟩
  next t =>
    obtain ⟨rest', read, made⟩ := map_eq_ok h
    obtain ⟨rfl, rfl⟩ := Prod.mk.inj made
    exact ⟨"null".toList, by rw [eq_append_of_readWord read]; rfl, .null, fun _ => .null⟩
  next t =>
    obtain ⟨rest', read, made⟩ := map_eq_ok h
    obtain ⟨rfl, rfl⟩ := Prod.mk.inj made
    exact ⟨"true".toList, by rw [eq_append_of_readWord read]; rfl, .bool, fun _ => .bool⟩
  next t =>
    obtain ⟨rest', read, made⟩ := map_eq_ok h
    obtain ⟨rfl, rfl⟩ := Prod.mk.inj made
    exact ⟨"false".toList, by rw [eq_append_of_readWord read]; rfl, .bool, fun _ => .bool⟩
  next c t quote null true false =>
    split at h
    next start =>
      obtain ⟨⟨n, rest'⟩, read, made⟩ := map_eq_ok h
      obtain ⟨rfl, rfl⟩ := Prod.mk.inj made
      obtain ⟨p, ht, numeral, fits⟩ := numeral_of_readNumber read
      exact ⟨p, ht, .number numeral, fun _ => .number fits⟩
    next => cases h

end Spelling

end PostEditor
