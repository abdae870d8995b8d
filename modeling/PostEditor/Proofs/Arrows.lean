import PostEditor.Proofs.Choosing
import PostEditor.Proofs.KeyReports

namespace PostEditor

namespace Key

def turns (keys : List Key) : Int := keys.count .arrowDown - keys.count .arrowUp

@[simp] theorem turns_nil : turns [] = 0 := rfl

theorem turns_append (first rest : List Key) : turns (first ++ rest) = turns first + turns rest := by
  simp only [turns, List.count_append]
  omega

theorem turns_cons (k : Key) (keys : List Key) : turns (k :: keys) = turns [k] + turns keys :=
  turns_append [k] keys

theorem turns_perm {keys others : List Key} (h : others.Perm keys) : turns others = turns keys := by
  simp only [turns, h.count_eq]

theorem turns_replicate (k : Key) (n : Nat) : turns (List.replicate n k) = n * turns [k] := by
  induction n with
  | zero => simp
  | succ n ih =>
    rw [List.replicate_succ, turns_cons, ih, Int.natCast_succ, Int.add_mul, Int.one_mul, Int.add_comm]

end Key

namespace MentionSession

variable {s : MentionSession}

/-- The mention with its highlight moved down the list, around either end of it. -/
def rotated (s : MentionSession) (distance : Int) : MentionSession :=
  { s with highlighted := some (((s.highlighted.getD 0 : Nat) + distance) % s.candidates.length).toNat }

theorem natCast_residue (hc : s.candidates ≠ []) (x : Int) :
    ((x % s.candidates.length).toNat : Int) = x % s.candidates.length := by
  have positive : 0 < s.candidates.length := List.length_pos_iff.mpr hc
  exact Int.toNat_of_nonneg (Int.emod_nonneg x (by omega))

theorem rotated_rotated (hc : s.candidates ≠ []) (first second : Int) :
    (s.rotated first).rotated second = s.rotated (first + second) := by
  simp only [rotated, Option.getD_some, natCast_residue hc, Int.emod_add_emod, Int.add_assoc]

theorem rotated_add_length (distance : Int) (times : Int) :
    s.rotated (distance + times * s.candidates.length) = s.rotated distance := by
  simp only [rotated, ← Int.add_assoc, Int.add_mul_emod_self_right]

theorem HighlightValid.exists_highlighted (valid : s.HighlightValid) (hc : s.candidates ≠ []) :
    ∃ h, s.highlighted = some h ∧ h < s.candidates.length := by
  cases hh : s.highlighted with
  | none => exact absurd (valid.none_iff.mp hh) hc
  | some h => exact ⟨h, rfl, valid.lt_length h hh⟩

theorem HighlightValid.rotated_zero (valid : s.HighlightValid) (hc : s.candidates ≠ []) : s.rotated 0 = s := by
  obtain ⟨h, hh, hlt⟩ := valid.exists_highlighted hc
  have same : (((h : Nat) + 0 : Int) % s.candidates.length).toNat = h := by
    rw [Int.add_zero, Int.emod_eq_of_lt (by omega) (by omega), Int.toNat_natCast]
  obtain ⟨anchor, query, candidates, highlighted, error⟩ := s
  simp only at hh
  simp only [rotated, hh, Option.getD_some]
  rw [same]

theorem rotated_highlightValid (hc : s.candidates ≠ []) (distance : Int) :
    (s.rotated distance).HighlightValid := by
  have positive : 0 < s.candidates.length := List.length_pos_iff.mpr hc
  refine ⟨by simp [rotated, hc], ?_⟩
  intro index hi
  obtain rfl := Option.some.inj hi
  show (_ : Int).toNat < s.candidates.length
  rw [Int.toNat_lt (Int.emod_nonneg _ (by omega))]
  exact Int.emod_lt_of_pos _ (by omega)

end MentionSession

/-- Adding the length before taking one away keeps the subtraction above zero, and takes nothing from the residue. -/
theorem Completer.move_eq_rotated (c : Completer) {s : MentionSession} (hc : s.candidates ≠ []) (down : Bool) :
    c.move s down = { c with session := some (s.rotated (if down then 1 else -1)) } := by
  have positive : 0 < s.candidates.length := List.length_pos_iff.mpr hc
  cases down with
  | true =>
    have residue : (((s.highlighted.getD 0 : Nat) + 1 : Int) % s.candidates.length).toNat =
        (s.highlighted.getD 0 + 1) % s.candidates.length := by
      rw [← Int.natCast_succ, ← Int.natCast_emod, Int.toNat_natCast]
    simp only [move, MentionSession.rotated, if_true, residue]
  | false =>
    have residue : (((s.highlighted.getD 0 : Nat) + -1 : Int) % s.candidates.length).toNat =
        (s.highlighted.getD 0 + s.candidates.length - 1) % s.candidates.length := by
      have shifted : ((s.highlighted.getD 0 : Nat) + -1 + s.candidates.length : Int) =
          (s.highlighted.getD 0 + s.candidates.length - 1 : Nat) := by omega
      rw [← Int.add_emod_right, shifted, ← Int.natCast_emod, Int.toNat_natCast]
    simp only [move, MentionSession.rotated, Bool.false_eq_true, if_false, residue]

namespace Editor

variable {β : Type} [TextField β] {e : Editor β} {s : MentionSession}

theorem call_arrow (hs : e.completer.session = some s) (hc : s.candidates ≠ []) {k : Key} (hk : k.Moves) :
    e.call (.key k) = ⟨.key .handled, e.showing (s.rotated (Key.turns [k])), []⟩ := by
  rcases hk with rfl | rfl
  · simp only [call, key, hs, hc, if_false, Completer.move_eq_rotated _ hc]
    rfl
  · simp only [call, key, hs, hc, if_false, Completer.move_eq_rotated _ hc]
    rfl

theorem call_arrow_of_nil (hs : e.completer.session = some s) (hc : s.candidates = []) {k : Key} (hk : k.Moves) :
    e.call (.key k) = ⟨.key .passThrough, e, []⟩ := by
  rcases hk with rfl | rfl
  · simp only [call, key, hs, hc, if_true]
    rfl
  · simp only [call, key, hs, hc, if_true]
    rfl

theorem after_arrows (hs : e.completer.session = some s) (hc : s.candidates ≠ []) (valid : s.HighlightValid)
    {keys : List Key} (arrows : ∀ k ∈ keys, k.Moves) :
    e.after (keys.map .key) = e.showing (s.rotated (Key.turns keys)) := by
  induction keys generalizing e s with
  | nil =>
    rw [Key.turns_nil, valid.rotated_zero hc, showing_self hs]
    rfl
  | cons k keys ih =>
    have later := ih (e := e.showing (s.rotated (Key.turns [k]))) rfl hc
      (MentionSession.rotated_highlightValid hc _) (fun x hx => arrows x (List.mem_cons_of_mem k hx))
    rw [List.map_cons, after_cons, call_arrow hs hc (arrows k List.mem_cons_self), later, showing_showing,
      MentionSession.rotated_rotated hc, ← Key.turns_cons]

theorem history_arrows (hs : e.completer.session = some s) (hc : s.candidates ≠ [])
    {keys : List Key} (arrows : ∀ k ∈ keys, k.Moves) :
    ∀ r ∈ e.history (keys.map .key), ∃ distance, r = ⟨.key .handled, e.showing (s.rotated distance), []⟩ := by
  induction keys generalizing e s with
  | nil => simp
  | cons k keys ih =>
    intro r hr
    rw [List.map_cons, history_cons, call_arrow hs hc (arrows k List.mem_cons_self)] at hr
    rcases List.mem_cons.mp hr with rfl | hr
    · exact ⟨_, rfl⟩
    · obtain ⟨distance, rfl⟩ := ih (e := e.showing (s.rotated (Key.turns [k]))) rfl hc
        (fun x hx => arrows x (List.mem_cons_of_mem k hx)) r hr
      rw [showing_showing, MentionSession.rotated_rotated hc]
      exact ⟨_, rfl⟩

theorem history_arrows_of_nil (hs : e.completer.session = some s) (hc : s.candidates = [])
    {keys : List Key} (arrows : ∀ k ∈ keys, k.Moves) :
    e.after (keys.map .key) = e ∧ ∀ r ∈ e.history (keys.map .key), r = ⟨.key .passThrough, e, []⟩ := by
  induction keys with
  | nil => simp
  | cons k keys ih =>
    obtain ⟨same, ignored⟩ := ih fun x hx => arrows x (List.mem_cons_of_mem k hx)
    rw [List.map_cons, history_cons, after_cons, call_arrow_of_nil hs hc (arrows k List.mem_cons_self)]
    exact ⟨same, List.forall_mem_cons.mpr ⟨rfl, ignored⟩⟩

/-- While an open mention has candidates every arrow is taken: the highlight moves as far down the list, around its
ends, as there are more arrows down than up, and nothing else changes. -/
theorem arrows_rotate_highlight (trigger : Char) (b : β) (calls : List (Call β)) (keys : List Key)
    (arrows : ∀ k ∈ keys, k.Moves) :
    let e := (⟨{ trigger }, b⟩ : Editor β).after calls
    ∀ s, e.completer.session = some s →
      let n := s.candidates.length
      (n = 0 → e.after (keys.map .key) = e ∧
        ∀ r ∈ e.history (keys.map .key), r = ⟨.key .passThrough, e, []⟩) ∧
      (0 < n → ∃ h < n, s.highlighted = some h ∧
        (∃ i < n, (i : Int) = (h + keys.count .arrowDown - keys.count .arrowUp) % n ∧
          e.after (keys.map .key) = e.showing { s with highlighted := some i }) ∧
        (∀ r ∈ e.history (keys.map .key), r.result = .key .handled ∧ r.log = [] ∧
          ∃ i < n, r.state = e.showing { s with highlighted := some i }) ∧
        (∀ others : List Key, others.Perm keys → e.after (others.map .key) = e.after (keys.map .key)) ∧
        (∀ back : List Key, back = [.arrowDown, .arrowUp] ∨ back = [.arrowUp, .arrowDown] →
          e.after ((keys ++ back).map .key) = e.after (keys.map .key)) ∧
        ∀ k, k.Moves → e.after ((List.replicate n k).map .key) = e) := by
  intro e s hs n
  have valid : s.HighlightValid := after_highlightValid rfl hs
  refine ⟨fun none => history_arrows_of_nil hs (List.length_eq_zero_iff.mp none) arrows, ?_⟩
  intro positive
  have hc : s.candidates ≠ [] := List.length_pos_iff.mp positive
  have rest := fun {ks : List Key} (hk : ∀ k ∈ ks, k.Moves) => after_arrows hs hc valid hk
  have lands : ∀ distance, ∃ i < n, (i : Int) = ((s.highlighted.getD 0 : Nat) + distance) % n ∧
      s.rotated distance = { s with highlighted := some i } := by
    intro distance
    exact ⟨_, (MentionSession.rotated_highlightValid hc distance).lt_length _ rfl,
      MentionSession.natCast_residue hc _, rfl⟩
  obtain ⟨h, hh, hlt⟩ := valid.exists_highlighted hc
  refine ⟨h, hlt, hh, ?_, ?_, ?_, ?_, ?_⟩
  · obtain ⟨i, hi, residue, same⟩ := lands (Key.turns keys)
    refine ⟨i, hi, ?_, ?_⟩
    · rw [residue, hh, Option.getD_some, Key.turns, Int.add_sub_assoc]
    · rw [rest arrows, same]
  · intro r hr
    obtain ⟨distance, rfl⟩ := history_arrows hs hc arrows r hr
    obtain ⟨i, hi, _, same⟩ := lands distance
    exact ⟨rfl, rfl, i, hi, by rw [same]⟩
  · intro others perm
    rw [rest arrows, rest fun k hk => arrows k (perm.subset hk), Key.turns_perm perm]
  · intro back opposite
    have undone : (∀ k ∈ back, k.Moves) ∧ Key.turns back = 0 := by
      rcases opposite with rfl | rfl
      · exact ⟨by simp [Key.Moves], by decide⟩
      · exact ⟨by simp [Key.Moves], by decide⟩
    rw [rest arrows, rest (List.forall_mem_append.mpr ⟨arrows, undone.1⟩), Key.turns_append, undone.2, Int.add_zero]
  · intro k hk
    have around : s.rotated (0 + Key.turns [k] * n) = s.rotated 0 := MentionSession.rotated_add_length 0 _
    rw [rest fun x hx => List.eq_of_mem_replicate hx ▸ hk, Key.turns_replicate, Int.mul_comm,
      ← Int.zero_add (Key.turns [k] * n), around, valid.rotated_zero hc, showing_self hs]

theorem arrows_rotate_highlight_twice_around :
    let keys : List Key := List.replicate 5 .arrowUp ++ [.arrowDown]
    let found : List Candidate := [⟨['a'], ['a']⟩, ⟨['b'], ['b']⟩, ⟨['c'], ['c']⟩]
    let e := (⟨{ trigger := 'é' }, .ofText ['é']⟩ : Editor Draft).after
      [.input .insert, .lookupAnswer ⟨1⟩ (.ok found), .highlight 2]
    (∀ k ∈ keys, k.Moves) ∧ e.completer.session = some ⟨2, [], found, some 2, none⟩ ∧
      e.after (keys.map .key) = e.showing ⟨2, [], found, some 1, none⟩ := by
  intro keys found e
  have arrows : ∀ k ∈ keys, k.Moves := by simp [keys, Key.Moves]
  have hs : e.completer.session = some ⟨2, [], found, some 2, none⟩ := by decide
  obtain ⟨h, _, hh, ⟨i, _, residue, rests⟩, _⟩ :=
    (arrows_rotate_highlight 'é' (.ofText ['é'] : Draft) _ keys arrows _ hs).2 (by decide)
  obtain rfl := Option.some.inj hh
  have last : i = 1 := Int.ofNat.inj (residue.trans (by decide))
  refine ⟨arrows, hs, ?_⟩
  rw [rests, last]

end Editor

end PostEditor
