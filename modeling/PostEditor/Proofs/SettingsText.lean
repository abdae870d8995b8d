import PostEditor.Settings
import PostEditor.Proofs.ItemReading
import PostEditor.Proofs.MemberReading
import PostEditor.Proofs.WholeNumbers

namespace PostEditor

namespace Settings

open Spelling

def written (c : Settings) : List (Text × Json) := [
  ("lookup_url".toList, .string c.lookupUrl),
  ("upload_url".toList, .string c.uploadUrl),
  ("post_url".toList, .string c.postUrl),
  ("debounce_ms".toList, .number (.ofNat c.debounce)),
  ("trigger".toList, .string [c.trigger]),
  ("log_filter".toList, .string c.logFilter)]

def pick {α : Type} (given : List Text) (name : Text) (new old : α) : α :=
  if given.contains name then new else old

def taking (c : Settings) (given : List Text) (s : Settings) : Settings where
  lookupUrl := pick given "lookup_url".toList c.lookupUrl s.lookupUrl
  uploadUrl := pick given "upload_url".toList c.uploadUrl s.uploadUrl
  postUrl := pick given "post_url".toList c.postUrl s.postUrl
  debounce := pick given "debounce_ms".toList c.debounce s.debounce
  trigger := pick given "trigger".toList c.trigger s.trigger
  logFilter := pick given "log_filter".toList c.logFilter s.logFilter

section

variable {α : Type} {given : List Text} {name : Text} {new old : α}

theorem pick_of_mem (mem : name ∈ given) : pick given name new old = new :=
  if_pos (List.contains_iff_mem.mpr mem)

theorem pick_of_not_mem (other : name ∉ given) : pick given name new old = old :=
  if_neg (List.contains_iff_mem.not.mpr other)

theorem pick_cons (first : Text) :
    pick (first :: given) name new old = pick given name new (pick [first] name new old) := by
  simp only [pick, List.contains_cons, List.contains_nil, Bool.or_false]
  cases given.contains name <;> simp

end

variable {c : Settings}

theorem written_names : c.written.map Prod.fst = shape.names := rfl

theorem names_nodup : shape.names.Nodup := by decide

theorem taking_cons (name : Text) (given : List Text) (s : Settings) :
    c.taking (name :: given) s = c.taking given (c.taking [name] s) := by
  unfold taking
  congr 1 <;> exact pick_cons name

theorem taking_nil (s : Settings) : c.taking [] s = s := rfl

theorem foldl_taking (given : List Text) (s : Settings) :
    given.foldl (fun s name => c.taking [name] s) s = c.taking given s := by
  induction given generalizing s with
  | nil => exact (taking_nil s).symm
  | cons name given ih => rw [List.foldl_cons, ih, ← taking_cons]

theorem taking_other {name : Text} (other : name ∉ shape.names) : c.taking [name] = id := by
  have kept {α : Type} {known : Text} {new old : α} (mem : known ∈ shape.names) : pick [name] known new old = old :=
    pick_of_not_mem fun same => other (List.mem_singleton.mp same ▸ mem)
  funext s
  unfold taking
  cases s
  congr 1 <;> exact kept (by decide)

theorem taking_all {given : List Text} (all : ∀ name ∈ shape.names, name ∈ given) (s : Settings) :
    c.taking given s = c := by
  unfold taking
  cases c
  congr 1 <;> exact pick_of_mem (all _ (by decide))

theorem written_reads (word : c.debounce < 0x100000000) :
    List.Forall₂ (fun f m => f.name = m.1 ∧ f.Reads m.2 (c.taking [m.1])) shape.fields c.written := by
  have small : c.debounce < 0x10000000000000000 := by omega
  refine .cons ⟨rfl, ?_⟩ (.cons ⟨rfl, ?_⟩ (.cons ⟨rfl, ?_⟩ (.cons ⟨rfl, ?_⟩ (.cons ⟨rfl, ?_⟩ (.cons ⟨rfl, ?_⟩ .nil)))))
  · exact RecordField.scalar_reads (show _ = some c.lookupUrl from rfl) .string fun _ => rfl
  · exact RecordField.scalar_reads (show _ = some c.uploadUrl from rfl) .string fun _ => rfl
  · exact RecordField.scalar_reads (show _ = some c.postUrl from rfl) .string fun _ => rfl
  · exact RecordField.scalar_reads (Json.word?_ofNat word) (.number (Numeral.overflows_ofNat small)) fun _ => rfl
  · exact RecordField.scalar_reads (show _ = some c.trigger from rfl) .string fun _ => rfl
  · exact RecordField.scalar_reads (show _ = some c.logFilter from rfl) .string fun _ => rfl

theorem ofText_object (word : c.debounce < 0x100000000) {ms : List (Text × Json)} {t : Text}
    (h : shape.Spelled ms t) (given : (shape.known ms).Subperm c.written) :
    ofText t = .ok (c.taking (ms.map Prod.fst) {}) := by
  have takes (m : Text × Json) (mem : m ∈ ms) : shape.Takes m (c.taking [m.1]) := by
    by_cases field : m.1 ∈ shape.names
    · have named : m ∈ shape.known ms := List.mem_filter.mpr ⟨mem, decide_eq_true field⟩
      exact RecordShape.takes_of_forall₂ names_nodup (c.taking [·]) (written_reads word) (given.subset named)
    · unfold RecordShape.Takes
      rw [RecordShape.field?_eq_none_iff.mpr field]
      exact taking_other field
  have once : ((shape.known ms).map Prod.fst).Nodup := by
    obtain ⟨some_written, reordered, sublist⟩ := given
    have distinct := names_nodup.sublist (written_names (c := c) ▸ sublist.map Prod.fst)
    exact (reordered.map Prod.fst).nodup_iff.mp distinct
  rw [← foldl_taking, List.foldl_map]
  exact h.ofText rfl (c.taking [·]) takes once

theorem ofText_array (word : c.debounce < 0x100000000) {k : Nat} {t : Text}
    (h : (Json.array ((c.written.take k).map Prod.snd)).Spelled t) :
    ofText t = .ok (c.taking ((c.written.take k).map Prod.fst) {}) := by
  have reads : List.Forall₂ (fun f v => f.Reads v (c.taking [f.name])) (shape.fields.take k)
      ((c.written.take k).map Prod.snd) := by
    refine List.forall₂_map_right_iff.mpr (List.forall₂_take k ((written_reads word).imp ?_))
    rintro f m ⟨same, reads⟩
    exact same ▸ reads
  have names : (c.written.take k).map Prod.fst = (shape.fields.take k).map (·.name) := by
    rw [List.map_take, List.map_take, written_names]
    rfl
  rw [names, ← foldl_taking, List.foldl_map]
  exact RecordShape.ofText_array rfl (c.taking [·]) (List.take_append_drop k shape.fields).symm reads h

theorem fields_end : ∀ f ∈ shape.fields, f.Ends := by
  intro f mem
  simp only [shape, List.mem_cons, List.not_mem_nil, or_false] at mem
  rcases mem with rfl | rfl | rfl | rfl | rfl | rfl <;> exact RecordField.scalar_ends ..

/-- A text that gives a setting twice is not read. -/
theorem exists_error_of_twice {ms : List (Text × Json)} {t name : Text} (h : shape.Spelled ms t)
    (field : name ∈ shape.names) (twice : 2 ≤ (ms.map Prod.fst).count name) :
    ∃ problem, ofText t = .error problem := by
  cases read : ofText t with
  | error problem => exact ⟨problem, rfl⟩
  | ok s =>
    have once := List.nodup_iff_count_le_one.mp (h.nodup_of_ofText fields_end read) name
    rw [RecordShape.count_known field] at once
    omega

theorem ofPage_some (raw : Text) :
    (∃ s, ofText raw = .ok s ∧ ofPage (some raw) = (s, none)) ∨
      ∃ problem, ofText raw = .error problem ∧ ofPage (some raw) = ({}, some problem) := by
  cases read : ofText raw with
  | ok s => exact .inl ⟨s, rfl, by simp only [ofPage, Option.map_some, read]⟩
  | error problem => exact .inr ⟨problem, rfl, by simp only [ofPage, Option.map_some, read]⟩

/-- Settings are read by name, in any order and among any other members, or as an array of the first few; the others
keep their defaults. A text that gives a setting twice is not read. -/
theorem settings_by_name (c : Settings) (word : c.debounce < 0x100000000) :
    (∀ ms t, shape.Spelled ms t → (shape.known ms).Subperm c.written →
      ofText t = .ok (c.taking (ms.map Prod.fst) {})) ∧
    (∀ ms t, shape.Spelled ms t → (shape.known ms).Perm c.written → ofText t = .ok c) ∧
    (∀ k t, (Json.array ((c.written.take k).map Prod.snd)).Spelled t →
      ofText t = .ok (c.taking ((c.written.take k).map Prod.fst) {}) ∧
      ∀ u, shape.Spelled (c.written.take k) u → ofText u = ofText t) ∧
    (∀ t, (Json.array (c.written.map Prod.snd)).Spelled t → ofText t = .ok c) ∧
    (∀ ms t, shape.Spelled ms t → (∃ name ∈ shape.names, 2 ≤ (ms.map Prod.fst).count name) →
      ∃ problem, ofText t = .error problem) ∧
    ∀ raw, (∃ s, ofText raw = .ok s ∧ ofPage (some raw) = (s, none)) ∨
      ∃ problem, ofText raw = .error problem ∧ ofPage (some raw) = ({}, some problem) := by
  refine ⟨fun ms t spelled given => ofText_object word spelled given, ?_, ?_, ?_, ?_, ofPage_some⟩
  · intro ms t spelled all
    rw [ofText_object word spelled all.subperm, taking_all]
    intro name field
    have known : name ∈ (shape.known ms).map Prod.fst := (all.map Prod.fst).mem_iff.mpr (written_names ▸ field)
    exact (List.filter_sublist.map Prod.fst).subset known
  · intro k t spelled
    refine ⟨ofText_array word spelled, fun u object => ?_⟩
    have among : (shape.known (c.written.take k)).Subperm c.written :=
      (List.filter_sublist.trans (List.take_sublist k c.written)).subperm
    rw [ofText_array word spelled, ofText_object word object among]
  · intro t spelled
    have all : c.written.take 6 = c.written := rfl
    rw [ofText_array word (all ▸ spelled), all, taking_all]
    exact fun name field => written_names ▸ field
  · rintro ms t spelled ⟨name, field, twice⟩
    exact exists_error_of_twice spelled field twice

theorem settings_by_name_reordered :
    ofText "\x7b\"trigger\":\"#\",\"theme\":[null],\"lookup_url\":\"/names\"\x7d".toList =
      .ok { lookupUrl := "/names".toList, trigger := '#' } := by
  have nothing : Blanks [] := nofun
  have quoted (s : Text) (plain : s.all (fun c => decide (' ' ≤ c) && c != '"' && c != '\\') = true) :
      OfName .kept s ('"' :: (s ++ ['"'])) ∧ OfPadded .kept (.string s) ('"' :: (s ++ ['"'])) := by
    have chars : OfChars .kept s s := .as_is (List.all_eq_true.mp plain)
    exact ⟨.padded nothing chars nothing, by simpa using OfPadded.padded nothing (.scalar (.string chars)) nothing⟩
  have theme : OfPadded .kept (.array [.null]) "[null]".toList :=
    .padded nothing (.array (.one (.padded nothing (.scalar .null) nothing))) nothing
  have members := Spelling.OfMembers.more (quoted "trigger".toList (by decide)).1 (quoted ['#'] (by decide)).2
    (.more (quoted "theme".toList (by decide)).1 theme
      (.one (quoted "lookup_url".toList (by decide)).1 (quoted "/names".toList (by decide)).2))
  have by_name := (settings_by_name { lookupUrl := "/names".toList, trigger := '#' } (by decide)).1
  refine by_name _ _ (RecordShape.spelled_of_spelled (.padded nothing (.object members) nothing)) ?_
  exact ⟨[("lookup_url".toList, .string "/names".toList), ("trigger".toList, .string ['#'])], .swap ..,
      .cons_cons _ (.cons _ (.cons _ (.cons _ (.cons_cons _ (.cons _ .slnil)))))⟩

end Settings

end PostEditor
