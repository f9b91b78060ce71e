import DocumentMedia.Media.Video
import DocumentMedia.Proofs.Tree.Outline

/-! # Markup of videos

A video is written as a start tag, its source, a line for readers that cannot show it, and a close
tag. The start tag has the class and the style in front, as far as they are given, and all other
attributes behind them. Where these have plain names, the markup is read back with the same
attributes in the same order. -/
namespace DocumentMedia.Markup

open DocumentMedia.Text

/-! ## Start tags -/

/-- A start tag as it is written. -/
def startText (tag : String) (as : Attributes) : List Char :=
  '<' :: tag.toList ++ as.flatMap (fun a => ' ' :: attributeText a) ++ ['>']

/-- The attributes of which something is written: a flag without a name leaves nothing, if it
stands alone. -/
def writtenAttributes (attrs : Fields) : Attributes :=
  if (attrsText attrs).isEmpty then [] else shownAttributes attrs

theorem flatMap_writtenAttributes (attrs : Fields) :
    (writtenAttributes attrs).flatMap (fun a => ' ' :: attributeText a) =
      if (attrsText attrs).isEmpty then [] else ' ' :: (attrsText attrs).toList := by
  unfold writtenAttributes
  split
  · rfl
  · next hne =>
    have htext := toList_attrsText attrs
    cases hshown : shownAttributes attrs with
    | nil =>
      rw [hshown] at htext
      exact absurd (String.isEmpty_iff.mpr (String.toList_eq_nil_iff.mp htext)) hne
    | cons a as =>
      rw [hshown, List.map_cons, intercalate_cons, List.flatMap_map] at htext
      rw [htext]
      rfl

theorem mem_shown_of_written {attrs : Fields} {a : String × Option String}
    (h : a ∈ writtenAttributes attrs) : a ∈ shownAttributes attrs := by
  unfold writtenAttributes at h
  split at h
  · cases h
  · exact h

theorem attributeText_ne_nil {a : String × Option String} (h : a.1 ≠ "") : attributeText a ≠ [] := by
  unfold attributeText
  split <;> simp [h]

/-- Every attribute that has a name is written. -/
theorem mem_writtenAttributes {attrs : Fields} {a : String × Option String}
    (h : a ∈ shownAttributes attrs) (hname : a.1 ≠ "") : a ∈ writtenAttributes attrs := by
  unfold writtenAttributes
  rw [if_neg]
  · exact h
  · -- Of several attributes the blanks between them would be left, and of one its name.
    intro hempty
    have htext := toList_attrsText attrs
    rw [String.isEmpty_iff.mp hempty] at htext
    cases hshown : shownAttributes attrs with
    | nil =>
      rw [hshown] at h
      cases h
    | cons b bs =>
      rw [hshown, List.map_cons, intercalate_cons] at htext
      obtain ⟨hb, hbs⟩ := List.append_eq_nil_iff.mp htext.symm
      cases bs with
      | nil =>
        rw [hshown] at h
        obtain rfl := List.mem_singleton.mp h
        exact attributeText_ne_nil hname hb
      | cons => cases hbs

/-! ## Videos -/

/-- The class and the style in front of the other attributes, as far as they are given. -/
def headAttributes (cls style : String) : Attributes :=
  (if cls.isEmpty then [] else [("class", some cls)]) ++
    if style.isEmpty then [] else [("style", some style)]

def videoText (src : String) (as : Attributes) : List Char :=
  startText "video" as ++ "\n  ".toList ++
    startText "source" [("src", some src), ("type", some (videoMime src))] ++
    "\n  Your browser does not support the video tag.\n".toList ++ "</video>".toList

theorem escapeValue_videoMime (src : String) : escapeValue (videoMime src) = videoMime src := by
  unfold videoMime
  dsimp only
  split
  · decide
  · split <;> decide

theorem writtenAttributes_head (cls style : String) :
    writtenAttributes ((if cls.isEmpty then [] else [("class", .str cls)]) ++
      if style.isEmpty then [] else [("style", .str style)]) = headAttributes cls style := by
  unfold headAttributes
  by_cases hc : cls.isEmpty <;> by_cases hs : style.isEmpty <;>
    simp [hc, hs, writtenAttributes, attrsText, attrText?, shownAttributes, shown?, Value.display]

theorem toList_spaced (first : String) (pieces : List String) :
    (" ".intercalate (first :: pieces)).toList =
      first.toList ++ pieces.flatMap (fun s => ' ' :: s.toList) := by
  rw [String.toList_intercalate, List.map_cons]
  have h := intercalate_cons ' ' first.toList (pieces.map String.toList)
  rw [List.flatMap_map] at h
  exact h

theorem toList_videoMarkup (src cls style : String) (attrs : Fields) :
    (videoMarkup src cls style attrs).toList =
      videoText src (headAttributes cls style ++ writtenAttributes attrs) := by
  unfold videoMarkup videoText startText
  dsimp only
  rw [← writtenAttributes_head, List.flatMap_append, flatMap_writtenAttributes,
    flatMap_writtenAttributes, List.filter_cons_of_pos (by decide)]
  have hpieces (a b : String) : ([a, b].filter (!·.isEmpty)).flatMap (fun s => ' ' :: s.toList) =
      (if a.isEmpty then [] else ' ' :: a.toList) ++ if b.isEmpty then [] else ' ' :: b.toList := by
    by_cases ha : a.isEmpty <;> by_cases hb : b.isEmpty <;> simp [ha, hb]
  simp only [String.toList_append, toList_spaced, hpieces, attributeText, List.flatMap_cons,
    List.flatMap_nil, escapeValue_videoMime]
  simp

/-- What is read behind the start tag of a video. -/
def videoInner (src : String) : List Token :=
  "\n  ".toList.map .char ++ [.start "source" [("src", some src), ("type", some (videoMime src))]] ++
    "\n  Your browser does not support the video tag.\n".toList.map .char ++ [.close "video"]

theorem name_headAttributes_iff (cls style name : String) :
    name ∈ (headAttributes cls style).map (·.1) ↔
      (name = "class" ∧ cls ≠ "") ∨ (name = "style" ∧ style ≠ "") := by
  by_cases hc : cls.isEmpty <;> by_cases hs : style.isEmpty <;>
    simp [headAttributes, hc, hs, ← String.isEmpty_iff]

/-- Markup of a video is read back with its attributes, if these have plain names. -/
theorem read_videoMarkup (src cls style : String) {attrs : Fields} (h : ∀ e ∈ attrs, IsName e.1) :
    read (videoMarkup src cls style attrs) =
      some (.start "video" (headAttributes cls style ++ writtenAttributes attrs) ::
        videoInner src) := by
  have hnames : ∀ a ∈ headAttributes cls style ++ writtenAttributes attrs, IsName a.1 := by
    intro a ha
    rcases List.mem_append.mp ha with ha | ha
    · rcases (name_headAttributes_iff ..).mp (List.mem_map_of_mem ha) with ⟨hname, -⟩ | ⟨hname, -⟩
      all_goals rw [hname]; decide
    · exact isName_shown h a (mem_shown_of_written ha)
  have hsourceNames : ∀ a ∈ [("src", some src), ("type", some (videoMime src))], IsName a.1 := by
    simp only [List.forall_mem_cons]
    exact ⟨by decide, by decide, nofun⟩
  have hvideo := reads_start (show IsName "video" by decide) hnames
  have hsource := reads_start (show IsName "source" by decide) hsourceNames
  have hline : Reads .text "\n  ".toList ("\n  ".toList.map .char) .text := by decide
  have hinner : Reads .text "\n  Your browser does not support the video tag.\n".toList
      ("\n  Your browser does not support the video tag.\n".toList.map .char) .text := by decide
  have hclose := reads_close (show IsName "video" by decide)
  have hall := (((hvideo.append hline).append hsource).append hinner).append hclose
  refine Reads.read ?_
  rw [toList_videoMarkup]
  exact hall

end DocumentMedia.Markup
