import PostEditor.PageView
import PostEditor.Proofs.PercentCoding

namespace PostEditor

/-- The characters that end or change what is quoted in a style, or divide an address. -/
def addressDelimiters : Text := ['\x27', '"', '(', ')', '\\', '?', '#']

def isInert (c : Char) : Bool := !isBlank c && !addressDelimiters.contains c

/-- What a quoted string of a style holds, read from behind its opening quote, and what follows it. There is no such
string when it does not end, breaks the line, or holds an escape. -/
def quoted? : Text → Option (Text × Text)
  | [] => none
  | c :: t =>
    if c = '\x27' then some ([], t)
    else if ['\\', '\n', '\x0d', '\x0c'].contains c then none
    else (quoted? t).map fun (s, rest) => (c :: s, rest)

theorem isInert_of_isUnreserved {c : Char} (h : isUnreserved c = true) : isInert c = true ∧ c ≠ '/' := by
  have reserved : ∀ d ∈ '/' :: (blanks ++ addressDelimiters), (!isUnreserved d) = true :=
    List.all_eq_true.mp (by decide)
  have outside : c ∉ '/' :: (blanks ++ addressDelimiters) := by
    intro mem
    have none := reserved c mem
    rw [h] at none
    cases none
  simp only [List.mem_cons, List.mem_append, not_or] at outside
  obtain ⟨slash, blank, delimiter⟩ := outside
  exact ⟨by simp [isInert, isBlank, blank, delimiter], slash⟩

theorem quoted?_append {t : Text} (inert : ∀ c ∈ t, isInert c = true) (rest : Text) :
    quoted? (t ++ '\x27' :: rest) = some (t, rest) := by
  induction t with
  | nil => rfl
  | cons c t ih =>
    obtain ⟨hc, inert⟩ := List.forall_mem_cons.mp inert
    have loud : ∀ d ∈ ['\x27', '\\', '\n', '\x0d', '\x0c'], (!isInert d) = true := List.all_eq_true.mp (by decide)
    have outside : c ∉ ['\x27', '\\', '\n', '\x0d', '\x0c'] := by
      intro mem
      have none := loud c mem
      rw [hc] at none
      cases none
    obtain ⟨quote, others⟩ := not_or.mp (List.mem_cons.not.mp outside)
    simp [quoted?, ih inert, quote, others]

namespace Candidate

theorem avatar_eq (c : Candidate) :
    c.avatar = "/user/".toList ++ percentEncode isUnreserved c.id ++ "/avatar.png".toList := rfl

theorem coded_inert (name : Text) :
    ∀ c ∈ percentEncode isUnreserved name, isInert c = true ∧ c ≠ '/' := by
  have digits : ∀ c ∈ upperHexDigits, (isInert c && c != '/') = true := List.all_eq_true.mp (by decide)
  refine (percentCoded_percentEncode isUnreserved name).forall_mem (by decide) (fun c hc => ?_) fun _ =>
    isInert_of_isUnreserved
  simpa using digits c hc

theorem avatar_inert (c : Candidate) : ∀ x ∈ c.avatar, isInert x = true := by
  have opening : ∀ x ∈ "/user/".toList, isInert x = true := List.all_eq_true.mp (by decide)
  have closing : ∀ x ∈ "/avatar.png".toList, isInert x = true := List.all_eq_true.mp (by decide)
  exact List.forall_mem_append.mpr
    ⟨List.forall_mem_append.mpr ⟨opening, fun x hx => (coded_inert c.id x hx).1⟩, closing⟩

theorem count_slash_avatar (c : Candidate) : c.avatar.count '/' = 3 := by
  have none : (percentEncode isUnreserved c.id).count '/' = 0 :=
    List.count_eq_zero.mpr fun mem => (coded_inert c.id _ mem).2 rfl
  rw [avatar_eq, List.count_append, List.count_append, none]
  rfl

theorem avatar_inj {c c' : Candidate} : c.avatar = c'.avatar ↔ c.id = c'.id := by
  rw [avatar_eq, avatar_eq, List.append_left_inj, List.append_right_inj, percentEncode_inj (by decide)]

/-- The name of a candidate is coded in the address of its picture so that it is read back, names of different
candidates differ, and nothing in the address ends the quoted string of a style. -/
theorem avatar_holds_name_inertly (c : Candidate) :
    (∃ coded, c.avatar = "/user/".toList ++ coded ++ "/avatar.png".toList ∧
      PercentCoded isUnreserved coded ∧ '/' ∉ coded ∧ percentDecode? coded = some c.id) ∧
    (∀ x ∈ c.avatar, isBlank x = false ∧ x ∉ addressDelimiters) ∧
    c.avatar.count '/' = 3 ∧
    (∃ quoted, ItemView.pictureStyle c = "background-image: url(\x27".toList ++ quoted ∧
      quoted? quoted = some (c.avatar, [')'])) ∧
    ∀ c' : Candidate, c.avatar = c'.avatar ↔ c.id = c'.id := by
  refine ⟨⟨percentEncode isUnreserved c.id, c.avatar_eq, percentCoded_percentEncode _ _, ?_, ?_⟩, ?_,
    c.count_slash_avatar, ⟨c.avatar ++ ['\x27', ')'], ?_, quoted?_append c.avatar_inert [')']⟩, fun c' => avatar_inj⟩
  · exact fun mem => (coded_inert c.id _ mem).2 rfl
  · exact percentDecode?_percentEncode (by decide) c.id
  · intro x hx
    simpa [isInert] using c.avatar_inert x hx
  · have closing : ['\x27', ')'] = "\x27)".toList := rfl
    rw [closing, ← List.append_assoc]
    rfl

example : avatar (.ofName ['a', '\x27', ')', 'é']) = "/user/a%27%29%C3%A9/avatar.png".toList := by decide

end Candidate

end PostEditor
