import DocumentMedia.Document.Expand
import DocumentMedia.Proofs.Attribute.Merge

/-! # The slots of an image

The attributes of an image stand in its title, in a block behind it, or in both. How they are shared
out between the two does not change its classes and its style. -/
namespace DocumentMedia.Document

open DocumentMedia.Text DocumentMedia.Attribute

theorem eq_empty_of_isEmpty {block : AttrBlock} (h : block.isEmpty) : block = AttrBlock.empty := by
  obtain ⟨classes, style, freeform⟩ := block
  simp only [AttrBlock.isEmpty, Bool.and_eq_true, List.isEmpty_iff] at h
  obtain ⟨⟨rfl, rfl⟩, rfl⟩ := h
  rfl

/-- An image takes the block of its title, whether or not there is anything in it. -/
theorem takeTitle_block (title : Option String) :
    (takeTitle title).1 = AttrBlock.empty.merge (titleBlock (title.getD "").toList) := by
  unfold takeTitle
  dsimp only
  split
  · next h =>
    rw [eq_empty_of_isEmpty h]
    rfl
  · rfl

/-- Blocks in which all quotes are closed are merged to the classes and the style of the one block
of all their bodies, and to the last free-form text among them. So it is the same to an image how
many of the bodies stand in its title and how many behind it. -/
theorem looksLike_joined_bodies {bodies : List (List Char)}
    (h : ∀ b ∈ bodies, Closed (plainQuotes b)) :
    let whole := AttrBlock.parse (braced (joinWith [' '] bodies))
    let blocks := bodies.map fun b => AttrBlock.parse (braced b)
    let merged := blocks.foldl AttrBlock.merge AttrBlock.empty
    merged.LooksLike whole ∧
      merged.freeform = ((blocks.map (·.freeform)).filter (!·.isEmpty)).getLast?.getD [] ∧
      ∀ i, ((takeTitle (some (String.ofList (braced (joinWith [' '] (bodies.take i)))))).1.merge
        (AttrBlock.parse (braced (joinWith [' '] (bodies.drop i))))).LooksLike whole := by
  intro whole blocks merged
  let tokens (b : List Char) := tokensOf (plainQuotes b)
  have hwhole : whole = AttrBlock.ofTokens (bodies.flatMap tokens) := AttrBlock.parse_bodies h
  refine ⟨?_, AttrBlock.freeform_merged blocks, fun i => ?_⟩
  · have hblocks : blocks = (bodies.map tokens).map AttrBlock.ofTokens := by
      rw [List.map_map]
      exact List.map_congr_left fun b _ => AttrBlock.parse_braced b
    have hmerged : merged = ((bodies.map tokens).map AttrBlock.ofTokens).foldl AttrBlock.merge
        AttrBlock.empty := by rw [← hblocks]
    rw [hwhole, hmerged, List.flatMap_def]
    exact AttrBlock.looksLike_merged _
  · have htitle := AttrBlock.parse_bodies fun b hb => h b (List.mem_of_mem_take (i := i) hb)
    have hbehind := AttrBlock.parse_bodies fun b hb => h b (List.mem_of_mem_drop (i := i) hb)
    rw [hwhole, takeTitle_block, Option.getD_some, String.toList_ofList, AttrBlock.titleBlock_braced,
      htitle, hbehind]
    -- The two slots are two blocks that are merged in turn.
    have hslots := AttrBlock.looksLike_merged
      [(bodies.take i).flatMap tokens, (bodies.drop i).flatMap tokens]
    rwa [List.flatten_cons, List.flatten_singleton, ← List.flatMap_append,
      List.take_append_drop] at hslots

/-- A note with a quote in it, no body at all, a mark, and typographic quotes. -/
def slotBodies : List (List Char) :=
  [".wide style=\"color: red\" title='5\"'".toList, [], "#top class=\"x y\" style=' '".toList,
    "style=“margin: 0” attrs=\"loop\"".toList]

theorem looksLike_joined_bodies_sample :
    (∀ b ∈ slotBodies, Closed (plainQuotes b)) ∧
      (slotBodies.map fun b => AttrBlock.parse (braced b)).foldl AttrBlock.merge AttrBlock.empty =
        ⟨["wide".toList, "x".toList, "y".toList], "color: red; margin: 0".toList,
          "loop".toList⟩ ∧
      (AttrBlock.parse (braced (joinWith [' '] slotBodies))).classes =
        ["wide".toList, "x".toList, "y".toList] ∧
      ((takeTitle (some (String.ofList (braced (joinWith [' '] (slotBodies.take 1)))))).1.merge
        (AttrBlock.parse (braced (joinWith [' '] (slotBodies.drop 1))))).style =
          "color: red; margin: 0".toList := by
  have h : ∀ b ∈ slotBodies, Closed (plainQuotes b) := by decide +kernel
  obtain ⟨hmerged, -, hslots⟩ := looksLike_joined_bodies h
  have hvalue : (slotBodies.map fun b => AttrBlock.parse (braced b)).foldl AttrBlock.merge
      AttrBlock.empty = ⟨["wide".toList, "x".toList, "y".toList],
        "color: red; margin: 0".toList, "loop".toList⟩ := by decide +kernel
  rw [hvalue] at hmerged
  exact ⟨h, hvalue, hmerged.classes.symm, (hslots 1).style.trans hmerged.style.symm⟩

end DocumentMedia.Document
