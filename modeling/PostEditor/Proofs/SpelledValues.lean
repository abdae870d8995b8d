import PostEditor.Proofs.ReaderSteps

namespace PostEditor

namespace Spelling

variable {use : Use}

mutual

/-- A value within the limits, or one that is skipped, is read from any of its spellings up to its end. -/
theorem OfValue.read {v : Json} {t : Text} (h : OfValue use v t) {fuel depth : Nat} {b rest : Text}
    (blank : Blanks b) (fuel_le : 2 * t.length ≤ fuel) (within : use = .kept → v.Within depth) (stop : Stops rest) :
    ReadsAs use (readValue use fuel depth (b ++ (t ++ rest))) v rest := by
  have positive : 0 < t.length := by
    obtain ⟨_, _, rfl, _⟩ := h.exists_cons
    exact Nat.succ_pos _
  obtain ⟨fuel, rfl⟩ : ∃ f, fuel = f + 1 := ⟨fuel - 1, by omega⟩
  cases h with
  | scalar scalar =>
    obtain ⟨c, u, rfl, hc, other⟩ := scalar.exists_cons
    rw [List.cons_append, readValue_scalar blank hc other]
    exact scalar.read within stop
  | @emptyArray b' blank' =>
    obtain ⟨room, _⟩ := room_for_items within
    refine ⟨.array [], ?_, fun _ => rfl⟩
    rw [List.cons_append, List.append_assoc, List.singleton_append, readValue, skipBlanks_append blank,
      skipBlanks_cons (by decide)]
    simp only [if_neg room, skipBlanks_append blank', skipBlanks_bracket]
  | @array vs t items =>
    obtain ⟨room, inner⟩ := room_for_items within
    simp only [List.length_cons, List.length_append] at fuel_le
    have read : ReadsAs use (readItems use fuel (depth - 1) (t ++ ']' :: rest)) vs rest :=
      items.read (by omega) inner
    obtain ⟨vs', read, same⟩ := read
    refine ⟨.array vs', ?_, fun kept => by rw [same kept]⟩
    rw [List.cons_append, List.append_assoc, readValue_items blank room items.starts, List.singleton_append, read]
    rfl
  | @emptyObject b' blank' =>
    obtain ⟨room, _⟩ := room_for_members within
    refine ⟨.object [], ?_, fun _ => rfl⟩
    rw [List.cons_append, List.append_assoc, List.singleton_append, readValue, skipBlanks_append blank,
      skipBlanks_cons (by decide)]
    simp only [if_neg room, skipBlanks_append blank', skipBlanks_brace]
  | @object ms t members =>
    obtain ⟨room, inner⟩ := room_for_members within
    simp only [List.length_cons, List.length_append] at fuel_le
    have read : ReadsAs use (PostEditor.readMembers use fuel (depth - 1) (t ++ '}' :: rest)) ms rest :=
      members.read (by omega) inner
    obtain ⟨ms', read, same⟩ := read
    refine ⟨.object ms', ?_, fun kept => by rw [same kept]⟩
    rw [List.cons_append, List.append_assoc, readValue_members blank room members.starts, List.singleton_append, read]
    rfl
termination_by (sizeOf v, 0)

theorem OfPadded.read {v : Json} {t : Text} (h : OfPadded use v t) {fuel depth : Nat} {rest : Text}
    (fuel_le : 2 * t.length ≤ fuel) (within : use = .kept → v.Within depth) (stop : Stops rest) :
    ∃ b, Blanks b ∧ ReadsAs use (readValue use fuel depth (t ++ rest)) v (b ++ rest) := by
  cases h with
  | @padded _ b t b' before value after =>
    refine ⟨b', after, ?_⟩
    rw [List.append_assoc, List.append_assoc]
    simp only [List.length_append] at fuel_le
    exact value.read before (by omega) within (stop.blanks_append after)
termination_by (sizeOf v, 1)

theorem OfItems.read {vs : List Json} {t : Text} (h : OfItems use vs t) {fuel depth : Nat} {rest : Text}
    (fuel_le : 2 * t.length + 1 ≤ fuel) (within : use = .kept → ∀ v ∈ vs, v.Within depth) :
    ReadsAs use (readItems use fuel depth (t ++ ']' :: rest)) vs rest := by
  obtain ⟨fuel, rfl⟩ : ∃ f, fuel = f + 1 := ⟨fuel - 1, by omega⟩
  cases h with
  | @one v _ value =>
    obtain ⟨b, blank, v', read, same⟩ := value.read (show 2 * t.length ≤ fuel by omega)
      (fun kept => within kept v List.mem_cons_self) (stops_bracket rest)
    refine ⟨[v'], ?_, fun kept => by rw [same kept]⟩
    simp only [readItems, read, bind, Except.bind, skipBlanks_append blank]
    rfl
  | @more v vs t ts value later =>
    simp only [List.length_cons, List.length_append] at fuel_le
    obtain ⟨b, blank, v', read, same⟩ := value.read (show 2 * t.length ≤ fuel by omega)
      (fun kept => within kept v List.mem_cons_self) (stops_comma (ts ++ ']' :: rest))
    have behind : ReadsAs use (readItems use fuel depth (ts ++ ']' :: rest)) vs rest :=
      later.read (by omega) fun kept x hx => within kept x (List.mem_cons_of_mem v hx)
    obtain ⟨vs', read', same'⟩ := behind
    refine ⟨v' :: vs', ?_, fun kept => by rw [same kept, same' kept]⟩
    rw [List.append_assoc, List.cons_append]
    simp only [readItems, read, bind, Except.bind, skipBlanks_append blank,
      skipBlanks_comma, read']
termination_by (sizeOf vs, 0)

theorem OfMembers.read {ms : List (Text × Json)} {t : Text} (h : OfMembers use ms t) {fuel depth : Nat} {rest : Text}
    (fuel_le : 2 * t.length + 1 ≤ fuel) (within : use = .kept → ∀ m ∈ ms, m.2.Within depth) :
    ReadsAs use (PostEditor.readMembers use fuel depth (t ++ '}' :: rest)) ms rest := by
  obtain ⟨fuel, rfl⟩ : ∃ f, fuel = f + 1 := ⟨fuel - 1, by omega⟩
  cases h with
  | @one name p t v named value =>
    simp only [List.length_cons, List.length_append] at fuel_le
    obtain ⟨b, blank, name', read, same⟩ := readName_append named (':' :: (t ++ '}' :: rest))
    obtain ⟨b', blank', v', read', same'⟩ := value.read (show 2 * t.length ≤ fuel by omega)
      (fun kept => within kept _ List.mem_cons_self) (stops_brace rest)
    refine ⟨[(name', v')], ?_, fun kept => by rw [same kept, same' kept]⟩
    rw [List.append_assoc, List.cons_append]
    simp only [PostEditor.readMembers, read, bind, Except.bind, readColon_append blank, read',
      skipBlanks_append blank', skipBlanks_brace]
  | @more name p t ts v ms named value later =>
    simp only [List.length_cons, List.length_append] at fuel_le
    obtain ⟨b, blank, name', read, same⟩ := readName_append named (':' :: (t ++ ',' :: (ts ++ '}' :: rest)))
    obtain ⟨b', blank', v', read', same'⟩ := value.read (show 2 * t.length ≤ fuel by omega)
      (fun kept => within kept _ List.mem_cons_self) (stops_comma (ts ++ '}' :: rest))
    have behind : ReadsAs use (PostEditor.readMembers use fuel depth (ts ++ '}' :: rest)) ms rest :=
      later.read (by omega) fun kept x hx => within kept x (List.mem_cons_of_mem _ hx)
    obtain ⟨ms', read'', same''⟩ := behind
    refine ⟨(name', v') :: ms', ?_, fun kept => by rw [same kept, same' kept, same'' kept]⟩
    rw [List.append_assoc, List.cons_append, List.append_assoc, List.cons_append]
    simp only [PostEditor.readMembers, read, bind, Except.bind, readColon_append blank, read',
      skipBlanks_append blank', skipBlanks_comma, read'']
termination_by (sizeOf ms, 0)

end

end Spelling

end PostEditor
