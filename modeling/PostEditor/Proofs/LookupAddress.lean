import PostEditor.Dispatch
import PostEditor.Proofs.PercentCoding

namespace PostEditor

def Text.cutAt? (d : Char) : Text → Option (Text × Text)
  | [] => none
  | c :: t => if c = d then some ([], t) else (cutAt? d t).map fun (s, r) => (c :: s, r)

/-- An address taken apart at its first question mark, and behind it at each ampersand. -/
structure AddressParts where
  path : Text
  parameters : List Text
  deriving DecidableEq, Repr

namespace AddressParts

def ofText (t : Text) : AddressParts :=
  match t.cutAt? '?' with
  | none => ⟨t, []⟩
  | some (path, rest) => ⟨path, rest.splitOn '&'⟩

def addParameter (a : AddressParts) (parameter : Text) : AddressParts :=
  { a with parameters := a.parameters ++ [parameter] }

end AddressParts

/-- The characters that divide an address or its parameters, or stand for a blank in them. -/
def parameterDelimiters : Text := ['?', '#', '&', '=', '+', '/', ' ']

namespace Text

variable {d : Char} {s t : Text}

theorem cutAt?_append (h : d ∉ s) (r : Text) : cutAt? d (s ++ d :: r) = some (s, r) := by
  induction s with
  | nil => simp [cutAt?]
  | cons c s ih =>
    obtain ⟨other, h⟩ := not_or.mp (List.mem_cons.not.mp h)
    simp [cutAt?, ih h, Ne.symm other]

theorem cutAt?_of_not_mem (h : d ∉ t) : cutAt? d t = none := by
  induction t with
  | nil => rfl
  | cons c t ih =>
    obtain ⟨other, h⟩ := not_or.mp (List.mem_cons.not.mp h)
    simp [cutAt?, ih h, Ne.symm other]

end Text

namespace AddressParts

theorem ofText_of_not_mem {t : Text} (h : '?' ∉ t) : ofText t = ⟨t, []⟩ := by
  rw [ofText, Text.cutAt?_of_not_mem h]

theorem ofText_append {path : Text} (h : '?' ∉ path) (rest : Text) :
    ofText (path ++ '?' :: rest) = ⟨path, rest.splitOn '&'⟩ := by
  rw [ofText, Text.cutAt?_append h]

theorem ofText_addParameter (base : Text) {parameter : Text} (whole : '&' ∉ parameter) :
    ofText (base ++ (if base.contains '?' then '&' else '?') :: parameter) =
      (ofText base).addParameter parameter := by
  by_cases mem : '?' ∈ base
  · obtain ⟨path, rest, rfl, first⟩ := List.eq_append_cons_of_mem mem
    have mark : (path ++ '?' :: rest).contains '?' = true := by simp
    simp only [mark, if_true, List.append_assoc, List.cons_append]
    rw [ofText_append first, ofText_append first, List.splitOn_append_cons_self, List.splitOn_eq_singleton whole]
    rfl
  · have mark : base.contains '?' = false := by simpa using mem
    simp only [mark, Bool.false_eq_true, if_false]
    rw [ofText_append mem, ofText_of_not_mem mem, List.splitOn_eq_singleton whole]
    rfl

end AddressParts

def queryParameter (query : Text) : Text := "prefix=".toList ++ percentEncode isParameterChar query

theorem lookupAddress_some (base query : Text) :
    lookupAddress base (some query) =
      base ++ (if base.contains '?' then '&' else '?') :: queryParameter query := by
  exact List.append_assoc _ _ _

theorem coded_not_mem_parameterDelimiters (query : Text) :
    ∀ c ∈ percentEncode isParameterChar query, c ∉ parameterDelimiters := by
  have digits : ∀ c ∈ upperHexDigits, (!parameterDelimiters.contains c) = true := List.all_eq_true.mp (by decide)
  have reserved : ∀ c ∈ parameterDelimiters, (!isParameterChar c) = true := List.all_eq_true.mp (by decide)
  refine (percentCoded_percentEncode isParameterChar query).not_mem (by decide) (fun c hc => ?_) fun c hc => ?_
  · simpa using digits c hc
  · simpa using reserved c hc

theorem not_mem_queryParameter {c : Char} (hc : c ∈ parameterDelimiters) (other : c ∉ "prefix=".toList)
    (query : Text) : c ∉ queryParameter query := by
  intro mem
  rcases List.mem_append.mp mem with mem | mem
  · exact other mem
  · exact coded_not_mem_parameterDelimiters query c mem hc

theorem lookupAddress_inj {base : Text} {query query' : Option Text} :
    lookupAddress base query = lookupAddress base query' ↔ query = query' := by
  refine ⟨?_, congrArg _⟩
  intro same
  cases query with
  | none =>
    cases query' with
    | none => rfl
    | some query' => simp [lookupAddress] at same
  | some query =>
    cases query' with
    | none => simp [lookupAddress] at same
    | some query' =>
      rw [lookupAddress_some, lookupAddress_some] at same
      have coded := List.append_cancel_left (List.cons.inj (List.append_cancel_left same)).2
      rw [percentEncode_inj (by decide)] at coded
      rw [coded]

/-- The address of a lookup has the path and parameters of its base and one parameter more, from whose coded value the
query is read back. Different queries go to different addresses. -/
theorem lookup_address_carries_query (base : Text) :
    lookupAddress base none = base ∧
      (∀ query, ∃ parameter coded,
        AddressParts.ofText (lookupAddress base (some query)) = (AddressParts.ofText base).addParameter parameter ∧
          parameter.cutAt? '=' = some ("prefix".toList, coded) ∧
          PercentCoded isParameterChar coded ∧
          (∀ c ∈ coded, c ∉ parameterDelimiters) ∧
          percentDecode? coded = some query) ∧
      (∀ query, '#' ∈ lookupAddress base query ↔ '#' ∈ base) ∧
      ∀ query query', lookupAddress base query = lookupAddress base query' ↔ query = query' := by
  refine ⟨rfl, ?_, ?_, fun query query' => lookupAddress_inj⟩
  · intro query
    refine ⟨queryParameter query, percentEncode isParameterChar query, ?_, ?_, percentCoded_percentEncode _ _,
      coded_not_mem_parameterDelimiters query, percentDecode?_percentEncode (by decide) query⟩
    · rw [lookupAddress_some]
      exact AddressParts.ofText_addParameter base (not_mem_queryParameter (by decide) (by decide) query)
    · exact Text.cutAt?_append (s := "prefix".toList) (by decide) _
  · intro query
    cases query with
    | none => exact Iff.rfl
    | some query =>
      have absent : '#' ∉ queryParameter query := not_mem_queryParameter (by decide) (by decide) query
      rw [lookupAddress_some]
      split <;> simp [absent]

example : lookupAddress "/lookup?v=1".toList (some ['a', '&', '=', '+', '%', '#', 'é']) =
    "/lookup?v=1&prefix=a%26%3D%2B%25%23%C3%A9".toList := by decide

end PostEditor
