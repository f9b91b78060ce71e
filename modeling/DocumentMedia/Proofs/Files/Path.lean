import DocumentMedia.Files.Path
import DocumentMedia.Proofs.Text.Blank
import Mathlib.Data.List.Basic

/-! # Parts of paths

A path that is read from a text has parts without slashes, and what follows the last slash of the
text is its name. -/
namespace DocumentMedia.Files.Path

open DocumentMedia.Text

/-! ## Pieces of texts -/

/-- What stands between the slashes of a text. -/
def piecesOf (s : List Char) : List (List Char) := splitWhere (· = '/') s

theorem piecesOf_eq_splitOn (s : List Char) : piecesOf s = s.splitOn '/' := by
  rw [piecesOf, splitWhere_eq_splitOnP, List.splitOn_eq_splitOnP]
  rfl

theorem piecesOf_ne_nil (s : List Char) : piecesOf s ≠ [] := splitWhere_ne_nil _ s

theorem notMem_of_mem_piecesOf {s w : List Char} (h : w ∈ piecesOf s) : '/' ∉ w := by
  intro hc
  simpa using splitWhere_pieces _ s w h '/' hc

theorem piecesOf_append (s t : List Char) : piecesOf (s ++ '/' :: t) = piecesOf s ++ piecesOf t :=
  splitWhere_append _ s '/' t (by decide)

theorem piecesOf_plain {s : List Char} (h : '/' ∉ s) : piecesOf s = [s] :=
  splitWhere_of_none _ s fun c hc => by simpa using fun he : c = '/' => h (he ▸ hc)

theorem intercalate_piecesOf (s : List Char) : ['/'].intercalate (piecesOf s) = s := by
  rw [piecesOf_eq_splitOn, List.intercalate_splitOn]

theorem piecesOf_inj {s t : List Char} : piecesOf s = piecesOf t ↔ s = t := by
  constructor
  · intro h
    rw [← intercalate_piecesOf s, h, intercalate_piecesOf]
  · exact congrArg piecesOf

theorem exists_piecesOf {ws : List (List Char)} (hne : ws ≠ []) (h : ∀ w ∈ ws, '/' ∉ w) :
    ∃ s, piecesOf s = ws :=
  ⟨['/'].intercalate ws, by rw [piecesOf_eq_splitOn, List.splitOn_intercalate '/' h hne]⟩

theorem exists_piecesOf_end {s : List Char} {as bs : List (List Char)}
    (h : piecesOf s = as ++ bs) (hb : bs ≠ []) : ∃ r, piecesOf r = bs :=
  exists_piecesOf hb fun _ hw => notMem_of_mem_piecesOf (s := s) (h ▸ List.mem_append_right _ hw)

/-- A text can be cut between any two of its pieces. -/
theorem exists_of_piecesOf_append {s : List Char} {as bs : List (List Char)}
    (h : piecesOf s = as ++ bs) (ha : as ≠ []) (hb : bs ≠ []) :
    ∃ u v, s = u ++ '/' :: v ∧ piecesOf u = as ∧ piecesOf v = bs := by
  have hplain : ∀ w ∈ as, '/' ∉ w := fun w hw =>
    notMem_of_mem_piecesOf (s := s) (h ▸ List.mem_append_left _ hw)
  obtain ⟨u, hu⟩ := exists_piecesOf ha hplain
  obtain ⟨v, hv⟩ := exists_piecesOf_end h hb
  exact ⟨u, v, piecesOf_inj.mp (by rw [piecesOf_append, hu, hv, h]), hu, hv⟩

theorem exists_last_slash {s : List Char} (h : '/' ∈ s) :
    ∃ before after, s = before ++ '/' :: after ∧ '/' ∉ after := by
  obtain ⟨as, bs, hsplit, has⟩ := List.eq_append_cons_of_mem (List.mem_reverse.mpr h)
  refine ⟨bs.reverse, as.reverse, ?_, mt List.mem_reverse.mp has⟩
  rw [← List.reverse_inj, hsplit]
  simp

theorem exists_piecesOf_concat (s : List Char) : ∃ folders name, piecesOf s = folders ++ [name] :=
  ⟨_, _, (List.dropLast_concat_getLast (piecesOf_ne_nil s)).symm⟩

theorem piecesOf_append_plain {s name e : List Char} {folders : List (List Char)}
    (h : piecesOf s = folders ++ [name]) (he : '/' ∉ e) :
    piecesOf (s ++ e) = folders ++ [name ++ e] := by
  have hname : '/' ∉ name ++ e := by
    rw [List.mem_append, not_or]
    exact ⟨notMem_of_mem_piecesOf (s := s) (by rw [h]; simp), he⟩
  cases folders with
  | nil =>
    have hs : s = name := by
      rw [← piecesOf_inj, h, piecesOf_plain fun hc => hname (List.mem_append_left _ hc)]
      rfl
    rw [hs, piecesOf_plain hname]
    rfl
  | cons f fs =>
    obtain ⟨u, v, rfl, hu, hv⟩ := exists_of_piecesOf_append h (List.cons_ne_nil f fs) (by simp)
    have hv : v = name := by
      rw [← piecesOf_inj, hv, piecesOf_plain fun hc => hname (List.mem_append_left _ hc)]
    rw [List.append_assoc, List.cons_append, piecesOf_append, hu, hv, piecesOf_plain hname]

/-- What follows the last slash is the last piece. -/
theorem takeWhile_reverse_piece {s name : List Char} {folders : List (List Char)}
    (h : piecesOf s = folders ++ [name]) : (s.reverse.takeWhile (· ≠ '/')).reverse = name := by
  have hname : '/' ∉ name := notMem_of_mem_piecesOf (s := s) (by rw [h]; simp)
  have hpass := ne_of_notMem (mt List.mem_reverse.mp hname)
  cases folders with
  | nil =>
    rw [← piecesOf_plain hname, List.nil_append, piecesOf_inj] at h
    rw [h, List.takeWhile_eq_self_iff.mpr hpass, List.reverse_reverse]
  | cons f fs =>
    obtain ⟨u, v, rfl, -, hv⟩ := exists_of_piecesOf_append h (List.cons_ne_nil f fs) (by simp)
    rw [← piecesOf_plain hname, piecesOf_inj] at hv
    rw [hv, List.reverse_append, List.reverse_cons, List.append_assoc, List.singleton_append,
      takeWhile_run hpass (by decide), List.reverse_reverse]

/-! ## Parts -/

def IsPart (p : List Char) : Prop := p ≠ [] ∧ p ≠ ['.']

/-- The pieces that are parts of a path. -/
def partsAmong (ps : List (List Char)) : List (List Char) :=
  ps.filter fun p => p ≠ [] && p ≠ ['.']

theorem partsAmong_append (ps qs : List (List Char)) :
    partsAmong (ps ++ qs) = partsAmong ps ++ partsAmong qs :=
  List.filter_append _ _

/-- The parts of the path that is read from a text. -/
def partsOf (s : List Char) : List (List Char) := partsAmong (piecesOf s)

theorem parts_ofString (s : String) : (ofString s).parts = (partsOf s.toList).map String.ofList :=
  rfl

theorem partsOf_append (s t : List Char) : partsOf (s ++ '/' :: t) = partsOf s ++ partsOf t := by
  rw [partsOf, piecesOf_append, partsAmong_append, partsOf, partsOf]

theorem partsOf_plain {s : List Char} (h : '/' ∉ s) (hs : IsPart s) : partsOf s = [s] := by
  rw [partsOf, piecesOf_plain h]
  simp [partsAmong, hs.1, hs.2]

theorem partsOf_point {s : List Char} (h : '/' ∉ s) (hs : ¬ IsPart s) : partsOf s = [] := by
  rw [IsPart, not_and_or, not_not, not_not] at hs
  rcases hs with rfl | rfl <;> rfl

/-- No part of the path holds a slash. -/
def WellFormed (p : Path) : Prop := ∀ part ∈ p.parts, '/' ∉ part.toList

theorem wellFormed_ofString (s : String) : (ofString s).WellFormed := by
  intro part hp
  rw [parts_ofString, List.mem_map] at hp
  obtain ⟨w, hw, rfl⟩ := hp
  rw [String.toList_ofList]
  exact notMem_of_mem_piecesOf (List.mem_of_mem_filter hw)

theorem WellFormed.join {p q : Path} (hp : p.WellFormed) (hq : q.WellFormed) :
    (p.join q).WellFormed := by
  unfold Path.join
  split
  · exact hq
  · intro part h
    rcases List.mem_append.mp h with h | h
    · exact hp part h
    · exact hq part h

theorem WellFormed.parent {p : Path} (hp : p.WellFormed) : p.parent.WellFormed :=
  fun part h => hp part (List.dropLast_subset _ h)

theorem WellFormed.name {p : Path} (hp : p.WellFormed) : '/' ∉ p.name.toList := by
  unfold Path.name
  cases h : p.parts.getLast? with
  | none => simp
  | some part => exact hp part (List.mem_of_getLast? h)

theorem suffixOf_suffix (name : List Char) : suffixOf name <:+ name := by
  simp only [suffixOf]
  split
  · next c cs d ds htake hdrop =>
    refine ⟨(d :: ds).reverse, ?_⟩
    have hsplit := List.takeWhile_append_dropWhile (p := (· ≠ '.')) (l := name.reverse)
    rw [htake, hdrop] at hsplit
    rw [← List.reverse_inj, ← hsplit]
    simp
  · exact List.nil_suffix

theorem WellFormed.suffix {p : Path} (hp : p.WellFormed) : '/' ∉ p.suffix.toList := by
  simp only [Path.suffix, String.toList_ofList]
  exact fun h => hp.name ((suffixOf_suffix _).subset h)

theorem name_ofString {s : String} {before name : List Char} (hs : s.toList = before ++ '/' :: name)
    (hn : '/' ∉ name) (he : name ≠ []) (hd : name ≠ ['.']) :
    (ofString s).parts.getLast? = some (String.ofList name) := by
  rw [parts_ofString, hs, partsOf_append, partsOf_plain hn ⟨he, hd⟩, List.map_append]
  exact List.getLast?_concat

theorem name_join {p q : Path} {name : String} (h : q.parts.getLast? = some name) :
    (p.join q).name = name := by
  unfold Path.join Path.name
  split
  · rw [h, Option.getD_some]
  · rw [List.getLast?_append, h]
    rfl

theorem ofString_plain {s : String} (h : '/' ∉ s.toList) (hlength : 1 < s.toList.length) :
    ofString s = ⟨"", [s]⟩ := by
  have hpart : IsPart s.toList := by
    constructor <;> (intro he; rw [he] at hlength; exact absurd hlength (by decide))
  have hroot : rootOf s.toList = "" := by
    unfold rootOf
    split
    · next he => exact absurd (he ▸ List.mem_cons_self) h
    · next he => exact absurd (he ▸ List.mem_cons_self) h
    · next he => exact absurd (he ▸ List.mem_cons_self) h
    · rfl
  have hparts : (ofString s).parts = [s] := by
    rw [parts_ofString, partsOf_plain h hpart, List.map_singleton, String.ofList_toList]
  rw [← hroot, ← hparts]
  rfl

/-! ## Children -/

theorem parent_child (p : Path) (name : String) : (p.child name).parent = p := by
  simp [parent, child]

theorem name_child (p : Path) (name : String) : (p.child name).name = name := by
  simp [Path.name, child]

theorem child_parent {p : Path} (h : p.parts ≠ []) : p.parent.child p.name = p := by
  rw [child, parent, Path.name, List.getLast?_eq_getLast_of_ne_nil h, Option.getD_some,
    List.dropLast_concat_getLast]

theorem child_inj {p q : Path} {name name' : String} :
    p.child name = q.child name' ↔ p = q ∧ name = name' := by
  constructor
  · intro h
    have hparent := congrArg Path.parent h
    have hname := congrArg Path.name h
    rw [parent_child, parent_child] at hparent
    rw [name_child, name_child] at hname
    exact ⟨hparent, hname⟩
  · rintro ⟨rfl, rfl⟩
    rfl

/-- The text of a child is the name behind a text that depends on the parent only. -/
theorem text_child (p : Path) :
    ∃ before : String, ∀ name, (p.child name).text = before ++ name := by
  by_cases hp : p.parts = []
  · refine ⟨p.root, fun name => ?_⟩
    simp [text, child, hp]
  · refine ⟨p.root ++ ("/".intercalate p.parts ++ "/"), fun name => ?_⟩
    simp [text, child, String.intercalate_append_of_ne_nil hp, String.append_assoc]

/-- A point and other characters behind a name are its suffix. -/
theorem suffixOf_append {stem ext : List Char} (hs : stem ≠ []) (he : ext ≠ []) (hp : '.' ∉ ext) :
    suffixOf (stem ++ '.' :: ext) = '.' :: ext := by
  have hpass : ∀ c ∈ ext.reverse, decide (c ≠ '.') = true :=
    ne_of_notMem (mt List.mem_reverse.mp hp)
  have hreverse : (stem ++ '.' :: ext).reverse = ext.reverse ++ '.' :: stem.reverse := by simp
  obtain ⟨c, cs, hc⟩ := List.exists_cons_of_ne_nil (mt List.reverse_eq_nil_iff.mp he)
  obtain ⟨d, ds, hd⟩ := List.exists_cons_of_ne_nil (mt List.reverse_eq_nil_iff.mp hs)
  have htake : (ext.reverse ++ '.' :: stem.reverse).takeWhile (· ≠ '.') = c :: cs :=
    (takeWhile_run hpass (by decide) _).trans hc
  have hdrop : (ext.reverse ++ '.' :: stem.reverse).dropWhile (· ≠ '.') = '.' :: d :: ds := by
    rw [dropWhile_run hpass (by decide), hd]
  simp only [suffixOf, hreverse, htake, hdrop]
  rw [← hc, List.reverse_reverse]

theorem suffixOf_of_notMem {name : List Char} (hp : '.' ∉ name) : suffixOf name = [] := by
  have hdrop : name.reverse.dropWhile (· ≠ '.') = [] :=
    List.dropWhile_eq_nil_iff.mpr (ne_of_notMem (mt List.mem_reverse.mp hp))
  simp only [suffixOf, hdrop]
  split
  · next he => cases he
  · rfl

theorem suffixOf_hidden {ext : List Char} (hp : '.' ∉ ext) : suffixOf ('.' :: ext) = [] := by
  have hpass : ∀ c ∈ ext.reverse, decide (c ≠ '.') = true :=
    ne_of_notMem (mt List.mem_reverse.mp hp)
  have hdrop : (ext.reverse ++ ['.']).dropWhile (· ≠ '.') = ['.'] :=
    dropWhile_run hpass (by decide) []
  simp only [suffixOf, List.reverse_cons, hdrop]
  split
  · next he => cases he
  · rfl

/-! ## Ends of paths -/

/-- Slashes and single points, which add nothing to a path. -/
inductive IsTail : List Char → Prop where
  | nil : IsTail []
  | snoc {t b} (ht : IsTail t) (hb : b = [] ∨ b = ['.']) : IsTail (t ++ '/' :: b)

theorem IsTail.notMem {t : List Char} (h : IsTail t) {c : Char} (hs : c ≠ '/') (hp : c ≠ '.') :
    c ∉ t := by
  induction h with
  | nil => exact List.not_mem_nil
  | snoc _ hb ih => rcases hb with rfl | rfl <;> simp [ih, hs, hp]

theorem IsTail.partsOf {t : List Char} (h : IsTail t) (s : List Char) :
    Path.partsOf (s ++ t) = Path.partsOf s := by
  induction h with
  | nil => rw [List.append_nil]
  | snoc _ hb ih =>
    rw [← List.append_assoc, partsOf_append, ih]
    rcases hb with rfl | rfl <;> exact List.append_nil _

/-- The last part of a path stands in its text, with nothing behind it that adds to the path. -/
theorem exists_of_getLast?_partsOf {s n : List Char} (h : (partsOf s).getLast? = some n) :
    ∃ front t, s = front ++ n ++ t ∧ IsTail t := by
  induction hlength : s.length using Nat.strong_induction_on generalizing s with
  | _ k ih =>
    by_cases hs : '/' ∈ s
    · obtain ⟨before, after, rfl, hafter⟩ := exists_last_slash hs
      rw [partsOf_append] at h
      by_cases hpart : IsPart after
      · rw [partsOf_plain hafter hpart, List.getLast?_concat] at h
        cases h
        exact ⟨before ++ ['/'], [], by simp, .nil⟩
      · rw [partsOf_point hafter hpart, List.append_nil] at h
        have hshort : before.length < k := by
          rw [← hlength, List.length_append, List.length_cons]
          omega
        obtain ⟨front, t, rfl, ht⟩ := ih _ hshort h rfl
        rw [IsPart, not_and_or, not_not, not_not] at hpart
        exact ⟨front, t ++ '/' :: after, by simp, .snoc ht hpart⟩
    · by_cases hpart : IsPart s
      · rw [partsOf_plain hs hpart] at h
        cases h
        exact ⟨[], [], by simp, .nil⟩
      · rw [partsOf_point hs hpart] at h
        cases h

/-- What ends in a longer text without slashes has it at the end of its last part. -/
theorem getLast?_partsOf_append (s : List Char) {n : List Char} (hn : '/' ∉ n)
    (hlength : 1 < n.length) : ∃ front, (partsOf (s ++ n)).getLast? = some (front ++ n) := by
  have hpart (front : List Char) : IsPart (front ++ n) := by
    constructor <;> intro he <;> have hle := congrArg List.length he <;>
      simp only [List.length_append, List.length_nil, List.length_singleton] at hle <;> omega
  by_cases hs : '/' ∈ s
  · obtain ⟨before, after, rfl, hafter⟩ := exists_last_slash hs
    refine ⟨after, ?_⟩
    rw [List.append_assoc, List.cons_append, partsOf_append,
      partsOf_plain (by simp [hafter, hn]) (hpart after), List.getLast?_concat]
  · exact ⟨s, by rw [partsOf_plain (by simp [hs, hn]) (hpart s)]; rfl⟩

end DocumentMedia.Files.Path
