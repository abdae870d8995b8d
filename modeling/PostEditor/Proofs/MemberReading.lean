import PostEditor.Proofs.RecordSpelling

namespace PostEditor

open Spelling

namespace RecordShape

variable {σ : Type} {shape : RecordShape σ}
variable {name b t rest : Text} {v : Json} {ms : List (Text × Json)} {seen : List Text}

theorem readMember_of_takes {put : σ → σ} (takes : shape.Takes (name, v) put)
    (value : OfPadded (shape.use name) v t) (blank : Blanks b) (stop : Stops rest)
    (fresh : name ∈ shape.names → name ∉ seen) (record : σ) :
    ∃ b', Blanks b' ∧
      shape.readMember seen record name (b ++ ':' :: (t ++ rest)) =
        .ok (shape.note seen name, put record, b' ++ rest) := by
  unfold Takes at takes
  unfold readMember
  cases found : shape.field? name with
  | none =>
    have field := field?_eq_none_iff.mp found
    rw [use, if_neg field] at value
    obtain ⟨b', blank', skipped⟩ := skipValue_append value stop
    simp only [found] at takes
    refine ⟨b', blank', ?_⟩
    simp only [readColon_append blank, skipped, bind, Except.bind, note, if_neg field, takes, id]
  | some f =>
    have field := mem_names_of_field? found
    rw [use, if_pos field] at value
    simp only [found] at takes
    obtain ⟨b', blank', read⟩ := takes record value stop
    refine ⟨b', blank', ?_⟩
    simp only [List.contains_eq_mem, fresh field, decide_false, Bool.false_eq_true, if_false, readColon_append blank,
      read, bind, Except.bind, note, if_pos field]

theorem fresh_of_nodup (once : ((shape.known ms).map Prod.fst ++ shape.note seen name).Nodup) :
    name ∈ shape.names → name ∉ seen := by
  intro field
  have noted := (List.nodup_append.mp once).2.1
  rw [note, if_pos field] at noted
  exact (List.nodup_cons.mp noted).1

theorem nodup_note_of_fresh (once : seen.Nodup) (fresh : name ∈ shape.names → name ∉ seen) :
    (shape.note seen name).Nodup := by
  unfold note
  split
  next field => exact List.nodup_cons.mpr ⟨fresh field, once⟩
  next => exact once

/-- Members that are all taken are read up to the closing brace, each into the record that the others left. -/
theorem OfMembers.read (h : shape.OfMembers ms t) (optional : shape.complete = false) {give : Text → σ → σ}
    (takes : ∀ m ∈ ms, shape.Takes m (give m.1)) (once : ((shape.known ms).map Prod.fst ++ seen).Nodup)
    (extra : Nat) (record : σ) :
    shape.readMembers (extra + ms.length) seen record (t ++ '}' :: rest) =
      .ok (ms.foldl (fun record m => give m.1 record) record, rest) := by
  induction h generalizing seen record with
  | @one name p t v named value =>
    obtain ⟨b, blank, name', read, same⟩ := readName_append named (':' :: (t ++ '}' :: rest))
    obtain rfl := same rfl
    obtain ⟨b', blank', member⟩ := readMember_of_takes (takes _ List.mem_cons_self) value blank
      (stops_brace rest) (fresh_of_nodup (nodup_note.mp once)) record
    rw [List.append_assoc, List.cons_append, List.length_singleton]
    simp only [readMembers, read, member, bind, Except.bind, skipBlanks_append blank',
      skipBlanks_brace, finish_eq_ok optional]
    rfl
  | @more name p t ts v ms named value later ih =>
    obtain ⟨b, blank, name', read, same⟩ := readName_append named (':' :: (t ++ ',' :: (ts ++ '}' :: rest)))
    obtain rfl := same rfl
    obtain ⟨b', blank', member⟩ := readMember_of_takes (takes _ List.mem_cons_self) value blank
      (stops_comma (ts ++ '}' :: rest)) (fresh_of_nodup (nodup_note.mp once)) record
    have behind := ih (fun m hm => takes m (List.mem_cons_of_mem _ hm)) (nodup_note.mp once) (give name' record)
    rw [List.append_assoc, List.cons_append, List.append_assoc, List.cons_append, List.length_cons, ← Nat.add_assoc]
    simp only [readMembers, read, member, bind, Except.bind, skipBlanks_append blank',
      skipBlanks_comma, behind, List.foldl_cons]

theorem member_of_readMember {seen' : List Text} {record record' : σ} {rest' : Text}
    (ends : ∀ f ∈ shape.fields, f.Ends) (value : OfPadded (shape.use name) v t) (blank : Blanks b) (stop : Stops rest)
    (read : shape.readMember seen record name (b ++ ':' :: (t ++ rest)) = .ok (seen', record', rest')) :
    seen' = shape.note seen name ∧ (name ∈ shape.names → name ∉ seen) ∧ ∃ b', Blanks b' ∧ rest' = b' ++ rest := by
  unfold readMember at read
  split at read
  next none =>
    have field := field?_eq_none_iff.mp none
    rw [use, if_neg field] at value
    obtain ⟨b', blank', skipped⟩ := skipValue_append value stop
    simp only [readColon_append blank, skipped, bind, Except.bind] at read
    cases read
    exact ⟨by rw [note, if_neg field], fun member => absurd member field, b', blank', rfl⟩
  next f found =>
    have field := mem_names_of_field? found
    rw [use, if_pos field] at value
    split at read
    next => cases read
    next fresh =>
      simp only [readColon_append blank, bind, Except.bind] at read
      split at read
      next => cases read
      next r taken =>
        cases read
        obtain ⟨b', blank', ended⟩ := ends f (List.mem_of_find?_eq_some found) value stop taken
        exact ⟨by rw [note, if_pos field], fun _ => by simpa using fresh, b', blank', ended⟩

/-- Members are read only if no field is given twice. -/
theorem OfMembers.nodup_of_read (h : shape.OfMembers ms t) (ends : ∀ f ∈ shape.fields, f.Ends) {fuel : Nat}
    {record : σ} {r : σ × Text} (once : seen.Nodup)
    (read : shape.readMembers fuel seen record (t ++ '}' :: rest) = .ok r) :
    ((shape.known ms).map Prod.fst ++ seen).Nodup := by
  induction h generalizing fuel seen record with
  | @one name p t v named value =>
    cases fuel with
    | zero => cases read
    | succ fuel =>
      obtain ⟨b, blank, name', found, same⟩ := readName_append named (':' :: (t ++ '}' :: rest))
      obtain rfl := same rfl
      rw [List.append_assoc, List.cons_append] at read
      obtain ⟨_, found', read⟩ := bind_eq_ok read
      cases found.symm.trans found'
      obtain ⟨⟨seen', record', rest'⟩, member, _⟩ := bind_eq_ok read
      obtain ⟨rfl, fresh, _⟩ := member_of_readMember ends value blank (stops_brace rest) member
      exact nodup_note.mpr (nodup_note_of_fresh once fresh)
  | @more name p t ts v ms named value later ih =>
    cases fuel with
    | zero => cases read
    | succ fuel =>
      obtain ⟨b, blank, name', found, same⟩ := readName_append named (':' :: (t ++ ',' :: (ts ++ '}' :: rest)))
      obtain rfl := same rfl
      rw [List.append_assoc, List.cons_append, List.append_assoc, List.cons_append] at read
      obtain ⟨_, found', read⟩ := bind_eq_ok read
      cases found.symm.trans found'
      obtain ⟨⟨seen', record', rest'⟩, member, behind⟩ := bind_eq_ok read
      obtain ⟨rfl, fresh, b', blank', rfl⟩ :=
        member_of_readMember ends value blank (stops_comma (ts ++ '}' :: rest)) member
      simp only [skipBlanks_append blank', skipBlanks_comma] at behind
      exact nodup_note.mpr (ih (nodup_note_of_fresh once fresh) behind)

theorem OfMembers.length_le (h : shape.OfMembers ms t) : ms.length ≤ t.length := by
  induction h with
  | one =>
    simp only [List.length_cons, List.length_append, List.length_nil]
    omega
  | more _ _ _ ih =>
    simp only [List.length_cons, List.length_append]
    omega

theorem OfMembers.exists_start (h : shape.OfMembers ms t) (rest : Text) :
    ∃ u, skipBlanks (t ++ rest) = '"' :: (u ++ rest) ∧ shape.OfMembers ms ('"' :: u) := by
  cases h with
  | @one name p t v named value =>
    obtain ⟨u, first, named⟩ := named.exists_start (':' :: t ++ rest)
    exact ⟨u ++ ':' :: t, by simpa using first, .one named value⟩
  | @more name p t ts v ms named value later =>
    obtain ⟨u, first, named⟩ := named.exists_start (':' :: (t ++ ',' :: ts) ++ rest)
    exact ⟨u ++ ':' :: (t ++ ',' :: ts), by simpa using first, .more named value later⟩

theorem readObject_members (h : shape.OfMembers ms t) (rest : Text) :
    ∃ u extra, shape.OfMembers ms u ∧ shape.readObject (t ++ '}' :: rest) =
      shape.readMembers (extra + ms.length) [] shape.initial (u ++ '}' :: rest) := by
  obtain ⟨u, first, members⟩ := h.exists_start ('}' :: rest)
  obtain ⟨extra, enough⟩ : ∃ extra, ('"' :: (u ++ '}' :: rest)).length + 1 = extra + ms.length := by
    have short := members.length_le
    simp only [List.length_cons, List.length_append] at short ⊢
    exact Nat.exists_eq_add_of_le' (by omega)
  refine ⟨_, extra, members, ?_⟩
  rw [readObject, first, ← enough]
  rfl

theorem readObject_empty {b : Text} (blank : Blanks b) (optional : shape.complete = false) (rest : Text) :
    shape.readObject (b ++ '}' :: rest) = .ok (shape.initial, rest) := by
  rw [readObject, skipBlanks_append blank, skipBlanks_cons (by decide)]
  simp only [finish_eq_ok optional]
  rfl

theorem ofText_object {b : Text} (blank : Blanks b) (t : Text) :
    shape.ofText (b ++ '{' :: t) = (shape.readObject t).bind fun (record, rest) =>
      (readEnd rest).bind fun _ => .ok record := by
  rw [ofText, read, skipBlanks_append blank, skipBlanks_cons (by decide)]
  rfl

theorem Spelled.ofText (h : shape.Spelled ms t) (optional : shape.complete = false) (give : Text → σ → σ)
    (takes : ∀ m ∈ ms, shape.Takes m (give m.1)) (once : ((shape.known ms).map Prod.fst).Nodup) :
    shape.ofText t = .ok (ms.foldl (fun record m => give m.1 record) shape.initial) := by
  cases h with
  | empty before inside after =>
    simp only [ofText_object before, readObject_empty inside optional, Except.bind, readEnd_eq_ok after]
    rfl
  | @members b t b' _ before members after =>
    obtain ⟨u, extra, members, object⟩ := readObject_members members b'
    have read : shape.readMembers (extra + ms.length) [] shape.initial (u ++ '}' :: b') =
        .ok (ms.foldl (fun record m => give m.1 record) shape.initial, b') :=
      members.read optional takes (by simpa using once) extra shape.initial
    simp only [ofText_object before, object, read, Except.bind, readEnd_eq_ok after]

theorem Spelled.nodup_of_ofText (h : shape.Spelled ms t) (ends : ∀ f ∈ shape.fields, f.Ends) {record : σ}
    (read : shape.ofText t = .ok record) : ((shape.known ms).map Prod.fst).Nodup := by
  cases h with
  | empty => exact List.nodup_nil
  | @members b t b' _ before members after =>
    rw [ofText_object before] at read
    obtain ⟨r, object, _⟩ := bind_eq_ok read
    obtain ⟨u, extra, members, same⟩ := readObject_members members b'
    simpa using members.nodup_of_read ends List.nodup_nil (same ▸ object)

end RecordShape

end PostEditor
