import PostEditor.Proofs.SpelledValues

namespace PostEditor

namespace Spelling

theorem exists_blanks_of_skipBlanks {t u : Text} (h : skipBlanks t = u) : ∃ b, Blanks b ∧ t = b ++ u :=
  h ▸ exists_blanks t

theorem name_of_readName {t name rest : Text} (h : readName .kept t = .ok (name, rest)) :
    ∃ b p, Blanks b ∧ OfChars .kept name p ∧ t = b ++ '"' :: (p ++ '"' :: rest) := by
  unfold readName at h
  split at h
  next => cases h
  next t' quote =>
    obtain ⟨b, blank, rfl⟩ := exists_blanks_of_skipBlanks quote
    obtain ⟨p, rfl, chars⟩ := chars_of_readString (by simp) h
    exact ⟨b, p, blank, chars, rfl⟩
  next => cases h

theorem colon_of_readColon {t rest : Text} (h : readColon t = .ok rest) : ∃ b, Blanks b ∧ t = b ++ ':' :: rest := by
  unfold readColon at h
  split at h
  next => cases h
  next colon =>
    obtain rfl := Except.ok.inj h
    exact exists_blanks_of_skipBlanks colon
  next => cases h

mutual

theorem value_of_readValue {fuel depth : Nat} {t rest : Text} {v : Json}
    (h : readValue .kept fuel depth t = .ok (v, rest)) :
    v.Within depth ∧ ∃ b p, Blanks b ∧ OfValue .kept v p ∧ t = b ++ (p ++ rest) := by
  cases fuel with
  | zero => cases h
  | succ fuel =>
    unfold readValue at h
    split at h
    next t' opened =>
      obtain ⟨b, blank, rfl⟩ := exists_blanks_of_skipBlanks opened
      split at h
      next => cases h
      next room =>
        obtain ⟨depth, rfl⟩ := Nat.exists_eq_add_one_of_ne_zero fun none => room ⟨rfl, none⟩
        split at h
        next rest' closed =>
          obtain ⟨rfl, rfl⟩ := Prod.mk.inj (Except.ok.inj h)
          obtain ⟨b', blank', rfl⟩ := exists_blanks_of_skipBlanks closed
          exact ⟨.array (by simp), b, _, blank, .emptyArray blank', by simp⟩
        next =>
          obtain ⟨⟨vs, rest'⟩, read, made⟩ := map_eq_ok h
          obtain ⟨rfl, rfl⟩ := Prod.mk.inj made
          rw [readItems_skipBlanks] at read
          obtain ⟨within, p, items, rfl⟩ := items_of_readItems read
          exact ⟨.array within, b, _, blank, .array items, by simp⟩
    next t' opened =>
      obtain ⟨b, blank, rfl⟩ := exists_blanks_of_skipBlanks opened
      split at h
      next => cases h
      next room =>
        obtain ⟨depth, rfl⟩ := Nat.exists_eq_add_one_of_ne_zero fun none => room ⟨rfl, none⟩
        split at h
        next rest' closed =>
          obtain ⟨rfl, rfl⟩ := Prod.mk.inj (Except.ok.inj h)
          obtain ⟨b', blank', rfl⟩ := exists_blanks_of_skipBlanks closed
          exact ⟨.object (by simp), b, _, blank, .emptyObject blank', by simp⟩
        next =>
          obtain ⟨⟨ms, rest'⟩, read, made⟩ := map_eq_ok h
          obtain ⟨rfl, rfl⟩ := Prod.mk.inj made
          rw [readMembers_skipBlanks] at read
          obtain ⟨within, p, members, rfl⟩ := members_of_readMembers read
          exact ⟨.object within, b, _, blank, .object members, by simp⟩
    next =>
      obtain ⟨b, blank, ht⟩ := exists_blanks t
      obtain ⟨p, hp, scalar, within⟩ := scalar_of_readScalar h
      exact ⟨within depth, b, p, blank, .scalar scalar, hp ▸ ht⟩
termination_by fuel

theorem items_of_readItems {fuel depth : Nat} {t rest : Text} {vs : List Json}
    (h : readItems .kept fuel depth t = .ok (vs, rest)) :
    (∀ v ∈ vs, v.Within depth) ∧ ∃ p, OfItems .kept vs p ∧ t = p ++ ']' :: rest := by
  cases fuel with
  | zero => cases h
  | succ fuel =>
    unfold readItems at h
    obtain ⟨⟨v, behind⟩, read, ended⟩ := bind_eq_ok h
    obtain ⟨within, b, p, blank, value, rfl⟩ := value_of_readValue read
    simp only at ended
    split at ended
    next => cases ended
    next rest' closed =>
      obtain ⟨rfl, rfl⟩ := Prod.mk.inj (Except.ok.inj ended)
      obtain ⟨b', blank', rfl⟩ := exists_blanks_of_skipBlanks closed
      exact ⟨by simpa using within, _, .one (.padded blank value blank'), by simp⟩
    next t' comma =>
      obtain ⟨⟨vs, rest'⟩, read', made⟩ := bind_eq_ok ended
      obtain ⟨rfl, rfl⟩ := Prod.mk.inj (Except.ok.inj made)
      obtain ⟨b', blank', rfl⟩ := exists_blanks_of_skipBlanks comma
      obtain ⟨within', p', items, rfl⟩ := items_of_readItems read'
      exact ⟨List.forall_mem_cons.mpr ⟨within, within'⟩, _, .more (.padded blank value blank') items, by simp⟩
    next => cases ended
termination_by fuel

theorem members_of_readMembers {fuel depth : Nat} {t rest : Text} {ms : List (Text × Json)}
    (h : PostEditor.readMembers .kept fuel depth t = .ok (ms, rest)) :
    (∀ m ∈ ms, m.2.Within depth) ∧ ∃ p, OfMembers .kept ms p ∧ t = p ++ '}' :: rest := by
  cases fuel with
  | zero => cases h
  | succ fuel =>
    unfold PostEditor.readMembers at h
    obtain ⟨⟨name, behind_name⟩, read, named⟩ := bind_eq_ok h
    obtain ⟨behind_colon, colon, valued⟩ := bind_eq_ok named
    obtain ⟨⟨v, behind⟩, read', ended⟩ := bind_eq_ok valued
    obtain ⟨b, p, blank, chars, rfl⟩ := name_of_readName read
    obtain ⟨b', blank', rfl⟩ := colon_of_readColon colon
    obtain ⟨within, c, q, blank_c, value, rfl⟩ := value_of_readValue read'
    simp only at ended
    split at ended
    next => cases ended
    next rest' closed =>
      obtain ⟨rfl, rfl⟩ := Prod.mk.inj (Except.ok.inj ended)
      obtain ⟨c', blank_c', rfl⟩ := exists_blanks_of_skipBlanks closed
      exact ⟨by simpa using within, _, .one (.padded blank chars blank') (.padded blank_c value blank_c'), by simp⟩
    next t' comma =>
      obtain ⟨⟨ms, rest'⟩, read'', made⟩ := bind_eq_ok ended
      obtain ⟨rfl, rfl⟩ := Prod.mk.inj (Except.ok.inj made)
      obtain ⟨c', blank_c', rfl⟩ := exists_blanks_of_skipBlanks comma
      obtain ⟨within', p', members, rfl⟩ := members_of_readMembers read''
      exact ⟨List.forall_mem_cons.mpr ⟨within, within'⟩, _,
        .more (.padded blank chars blank') (.padded blank_c value blank_c') members, by simp⟩
    next => cases ended
termination_by fuel

end

end Spelling

namespace Json

/-- A text is read as a value exactly if it spells the value, within the limits of nesting and size. -/
theorem ofText_eq_ok_iff {t : Text} {v : Json} : ofText t = .ok v ↔ v.Spelled t ∧ v.Within maxDepth := by
  constructor
  · intro h
    obtain ⟨⟨v', rest⟩, read, h⟩ := Spelling.bind_eq_ok h
    obtain ⟨_, ended, made⟩ := Spelling.bind_eq_ok h
    obtain rfl := Except.ok.inj made
    obtain ⟨within, b, p, blank, value, rfl⟩ := Spelling.value_of_readValue read
    unfold readEnd at ended
    split at ended
    next closed =>
      obtain ⟨b', blank', rfl⟩ := Spelling.exists_blanks_of_skipBlanks closed
      exact ⟨.padded blank value (by simpa using blank'), within⟩
    next => cases ended
  · rintro ⟨spelled, within⟩
    have enough : 2 * t.length ≤ fuelFor t := Nat.le_add_right ..
    obtain ⟨b, blank, v', read, same⟩ :=
      Spelling.OfPadded.read spelled enough (fun _ => within) (show Spelling.Stops [] from nofun)
    obtain rfl := same rfl
    rw [List.append_nil, List.append_nil] at read
    simp only [ofText, read, bind, Except.bind, Spelling.readEnd_eq_ok blank]

end Json

end PostEditor
