import DocumentMedia.Asset.Publisher
import DocumentMedia.Proofs.Asset.Reference
import DocumentMedia.Proofs.Files.Path

/-! # Identifiers of documents

The identifier of a document does not tell its ending: documents of one name in one folder have the
same. -/
namespace DocumentMedia.Asset

open DocumentMedia.Text DocumentMedia.Files

section

variable {m ext : List Char} {c : Char}

theorem dropHead?_of_notMem (hc : c ∉ ext) : dropHead? (m ++ [c]) ext = none := by
  induction m generalizing ext with
  | nil =>
    cases ext with
    | nil => rfl
    | cons d ds => exact if_neg (List.ne_of_not_mem_cons hc)
  | cons h m ih =>
    cases ext with
    | nil => rfl
    | cons d ds =>
      rw [List.cons_append, dropHead?, ih fun hd => hc (List.mem_cons_of_mem _ hd), ite_self]

/-- What ends in a character does not reach into an ending without it. -/
theorem dropHead?_append (hc : c ∉ ext) (s : List Char) :
    dropHead? (m ++ [c]) (s ++ ext) = (dropHead? (m ++ [c]) s).map (· ++ ext) := by
  induction s generalizing m with
  | nil =>
    rw [List.nil_append, dropHead?_of_notMem hc, dropHead?_of_notMem List.not_mem_nil]
    rfl
  | cons d s ih =>
    cases m with
    | nil => by_cases hd : c = d <;> simp [dropHead?, hd]
    | cons h m =>
      simp only [List.cons_append, dropHead?]
      split
      · exact ih
      · rfl

theorem afterLast?_append (hc : c ∉ ext) (s : List Char) :
    afterLast? (m ++ [c]) (s ++ ext) = (afterLast? (m ++ [c]) s).map (· ++ ext) := by
  induction s with
  | nil =>
    have hnone : ∀ t : List Char, c ∉ t → afterLast? (m ++ [c]) t = none := by
      intro t ht
      induction t with
      | nil => simp [afterLast?]
      | cons d t ih =>
        rw [afterLast?, ih fun h => ht (List.mem_cons_of_mem _ h), dropHead?_of_notMem ht]
    rw [List.nil_append, hnone ext hc, hnone [] List.not_mem_nil]
    rfl
  | cons d s ih =>
    rw [List.cons_append, afterLast?, ih, ← List.cons_append, dropHead?_append hc, afterLast?]
    cases afterLast? (m ++ [c]) s <;> rfl

end

theorem dropLastBreak_append (s : List Char) {e : List Char} {c : Char}
    (h : e.getLast? = some c) (hc : c ≠ '\n') : dropLastBreak (s ++ e) = s ++ e := by
  have hreverse : (s ++ e).reverse.head? = some c := by
    rw [List.head?_reverse, List.getLast?_append, h]
    rfl
  unfold dropLastBreak
  split
  · next r hr =>
    rw [hr] at hreverse
    exact absurd (Option.some.inj hreverse).symm hc
  · rfl

/-! ## Extensions of documents -/

def documentWords : List String := ["md", "mdx", "markdown"]

/-- A point and a word for documents, in any case. -/
def IsDocumentExt (e : List Char) : Prop :=
  ∃ w ∈ documentWords, ∃ r, e = '.' :: r ∧ dropWord? w.toList r = some []

instance (e : List Char) : Decidable (IsDocumentExt e) :=
  decidable_of_iff (e.head? = some '.' ∧
      ∃ w ∈ documentWords, dropWord? w.toList e.tail = some []) <| by
    constructor
    · rintro ⟨hpoint, w, hw, hr⟩
      exact ⟨w, hw, e.tail, (List.cons_head?_tail hpoint).symm, hr⟩
    · rintro ⟨w, hw, r, rfl, hr⟩
      exact ⟨rfl, w, hw, hr⟩

def documentLetters : List Char := documentWords.flatMap String.toList

theorem mem_documentLetters {w : String} {p : Char} (hw : w ∈ documentWords) (hp : p ∈ w.toList) :
    p ∈ documentLetters :=
  List.mem_flatMap_of_mem hw hp

theorem documentLetters_marks :
    ∀ p ∈ documentLetters, ∀ c ∈ ['.', '/', '\\', '\n'], matchesLetter p c = false :=
  forall_mem_of_all₂ (by decide)

theorem notMem_documentWord {w : String} {r : List Char} (hw : w ∈ documentWords)
    (h : dropWord? w.toList r = some []) {c : Char} (hc : c ∈ ['.', '/', '\\', '\n']) : c ∉ r :=
  notMem_of_dropWord? h fun p hp => documentLetters_marks p (mem_documentLetters hw hp) c hc

theorem IsDocumentExt.notMem {e : List Char} (h : IsDocumentExt e) {c : Char}
    (hc : c ∈ ['/', '\\', '\n']) : c ∉ e := by
  obtain ⟨w, hw, r, rfl, hr⟩ := h
  have hpoint : c ≠ '.' := by
    rintro rfl
    exact absurd hc (by decide)
  rw [List.mem_cons, not_or]
  exact ⟨hpoint, notMem_documentWord hw hr (List.mem_cons_of_mem _ hc)⟩

theorem withoutDocumentExt_eq (s : List Char) : withoutDocumentExt s =
    match documentWords.findSome? fun w => beforeWord? w.toList (dropLastBreak s) with
    | some stem => stem ++ s.drop (dropLastBreak s).length
    | none => s := by
  simp only [beforeWord?, String.length_toList]
  rfl

theorem findSome?_beforeWord? (s : List Char) {e : List Char} (he : IsDocumentExt e) :
    documentWords.findSome? (fun w => beforeWord? w.toList (s ++ e)) = some s := by
  obtain ⟨w, hw, r, rfl, hr⟩ := he
  have hone : ∀ v ∈ documentWords, ∀ front,
      beforeWord? v.toList (s ++ '.' :: r) = some front → front = s := by
    intro v hv front hfront
    obtain ⟨r', hsplit, hr'⟩ := beforeWord?_eq_some.mp hfront
    exact (eq_of_points hsplit (notMem_documentWord hw hr (by decide))
      (notMem_documentWord hv hr' (by decide))).1.symm
  cases hfind : documentWords.findSome? fun v => beforeWord? v.toList (s ++ '.' :: r) with
  | none =>
    have hnone := List.findSome?_eq_none_iff.mp hfind w hw
    rw [beforeWord?_eq_some.mpr ⟨r, rfl, hr⟩] at hnone
    cases hnone
  | some front =>
    obtain ⟨v, hv, hfront⟩ := List.exists_of_findSome?_eq_some hfind
    rw [hone v hv front hfront]

theorem IsDocumentExt.dropLastBreak_append {e : List Char} (he : IsDocumentExt e) (s : List Char) :
    dropLastBreak (s ++ e) = s ++ e := by
  obtain ⟨c, hc⟩ : ∃ c, e.getLast? = some c := by
    obtain ⟨w, -, r, rfl, -⟩ := he
    exact ⟨_, List.getLast?_eq_getLast_of_ne_nil (List.cons_ne_nil _ _)⟩
  refine Asset.dropLastBreak_append s hc ?_
  rintro rfl
  exact he.notMem (by decide) (List.mem_of_getLast? hc)

theorem withoutDocumentExt_append (s : List Char) {e : List Char} (he : IsDocumentExt e) :
    withoutDocumentExt (s ++ e) = s := by
  rw [withoutDocumentExt_eq, he.dropLastBreak_append, findSome?_beforeWord? s he]
  simp

/-! ## Identifiers -/

/-- The part of a path below the content root, else its name. -/
def partBelow (contentRoot : String) (p : List Char) : List Char :=
  (afterLast? ('/' :: trimSlashes contentRoot.toList ++ ['/']) p).getD
    (p.reverse.takeWhile (· ≠ '/')).reverse

theorem partBelow_append (contentRoot : String) (p : List Char) {ext : List Char} (h : '/' ∉ ext) :
    partBelow contentRoot (p ++ ext) = partBelow contentRoot p ++ ext := by
  have hpass : ∀ c ∈ ext.reverse, decide (c ≠ '/') = true :=
    ne_of_notMem (mt List.mem_reverse.mp h)
  unfold partBelow
  rw [afterLast?_append h, List.reverse_append, List.takeWhile_append_of_pos hpass,
    List.reverse_append, List.reverse_reverse, Option.getD_map (· ++ ext)]

def slashed (p : List Char) : List Char := p.map fun c => if c = '\\' then '/' else c

theorem slashed_append (s t : List Char) : slashed (s ++ t) = slashed s ++ slashed t :=
  List.map_append

theorem slashed_plain {s : List Char} (h : '\\' ∉ s) : slashed s = s := by
  refine (List.map_congr_left fun c hc => if_neg ?_).trans (List.map_id' s)
  rintro rfl
  exact h hc

theorem postId_eq (path contentRoot : String) : postId path contentRoot =
    String.ofList (withoutDocumentExt (partBelow contentRoot (slashed path.toList))) := rfl

/-- Two texts that differ in their ending only give one identifier. -/
theorem postId_append (s contentRoot : String) :
    postId (s ++ ".md") contentRoot = postId (s ++ ".mdx") contentRoot := by
  have hmd : slashed ".md".toList = ".md".toList := by decide
  have hmdx : slashed ".mdx".toList = ".mdx".toList := by decide
  rw [postId_eq, postId_eq, String.toList_append, String.toList_append, slashed_append,
    slashed_append, hmd, hmdx, partBelow_append _ _ (by decide), partBelow_append _ _ (by decide),
    withoutDocumentExt_append _ (by decide), withoutDocumentExt_append _ (by decide)]

theorem Publisher.idOf_child (p : Publisher) (folder : Path) (name : String) :
    p.idOf (folder.child (name ++ ".md")) = p.idOf (folder.child (name ++ ".mdx")) := by
  obtain ⟨before, hbefore⟩ := Path.text_child folder
  unfold Publisher.idOf
  rw [hbefore, hbefore, ← String.append_assoc, ← String.append_assoc, postId_append]

end DocumentMedia.Asset
