import Cartridge.Proofs.Message.PlainText

/-!
# The fragments of the boxes

The boxes of a message hold the fragments in front of its end, each of them once and in their
order. Only the codes that cut are not there, and where they stood can be seen: a newline
between two lines, a box break between two boxes. What is lost is the kind of a box break and
the argument of a code. No other boxes have these properties.
-/
namespace Cartridge.Message

section Cutting

variable {α : Type} {isCut : α → Bool}

/-- What holds of the one part of nothing, and with a further element in front, holds of all
parts. -/
@[elab_as_elim]
theorem cutAt_induction {motive : List α → List (List α) → Prop} (nil : motive [] [[]])
    (cut : ∀ a l, isCut a → motive l (cutAt isCut l) → motive (a :: l) ([] :: cutAt isCut l))
    (keep : ∀ a l part parts, ¬ isCut a → cutAt isCut l = part :: parts →
      motive l (part :: parts) → motive (a :: l) ((a :: part) :: parts))
    (l : List α) : motive l (cutAt isCut l) := by
  induction l with
  | nil => exact nil
  | cons a l ih =>
    by_cases h : isCut a
    · rw [cutAt_cons_of_isCut h]
      exact cut a l h ih
    · obtain ⟨part, parts, hl⟩ := exists_cutAt isCut l
      rw [cutAt_cons_of_not_isCut h hl]
      exact keep a l part parts h hl (hl ▸ ih)

lemma length_cutAt (l : List α) : (cutAt isCut l).length = l.countP isCut + 1 := by
  refine cutAt_induction rfl ?_ ?_ l
  · intro a l h ih
    rw [List.length_cons, ih, List.countP_cons_of_pos h]
  · intro a l part parts h _ ih
    rw [List.countP_cons_of_neg h, ← ih, List.length_cons, List.length_cons]

lemma cutAt_eq_splitOnP (l : List α) : cutAt isCut l = l.splitOnP isCut := by
  refine cutAt_induction ?_ ?_ ?_ l
  · rw [List.splitOnP_nil]
  · intro a l h ih
    rw [List.splitOnP_cons_eq_if_modifyHead, if_pos h, ih]
  · intro a l part parts h _ ih
    rw [List.splitOnP_cons_eq_if_modifyHead, if_neg h, ← ih, List.modifyHead_cons]

/-- A part holds elements of the whole, and none at which it is cut. -/
lemma mem_of_mem_cutAt {l : List α} {a : α} :
    ∀ part ∈ cutAt isCut l, a ∈ part → a ∈ l ∧ ¬ isCut a := by
  refine cutAt_induction ?_ ?_ ?_ l
  · intro part hpart ha
    cases List.mem_singleton.mp hpart
    cases ha
  · intro b l _ ih part hpart ha
    rcases List.mem_cons.mp hpart with rfl | hpart
    · cases ha
    · exact (ih part hpart ha).imp_left (List.mem_cons_of_mem b)
  · intro b l first parts h _ ih part hpart ha
    rcases List.mem_cons.mp hpart with rfl | hpart
    · rcases List.mem_cons.mp ha with rfl | ha
      · exact ⟨List.mem_cons_self, h⟩
      · exact (ih first List.mem_cons_self ha).imp_left (List.mem_cons_of_mem b)
    · exact (ih part (List.mem_cons_of_mem first hpart) ha).imp_left (List.mem_cons_of_mem b)

/-- The parts with a separator between two of them are the whole, with the separator for each
element at which it is cut. -/
lemma intercalate_map_cutAt {β : Type} (f : α → β) (separator : β) (l : List α) :
    [separator].intercalate ((cutAt isCut l).map (List.map f)) =
      l.map fun a => if isCut a then separator else f a := by
  refine cutAt_induction rfl ?_ ?_ l
  · intro a l h ih
    obtain ⟨part, parts, hl⟩ := exists_cutAt isCut l
    rw [List.map_cons (l := l), ← ih, if_pos h, hl]
    rfl
  · intro a l part parts h _ ih
    rw [List.map_cons (l := l), ← ih, if_neg h]
    cases parts <;> rfl

end Cutting

namespace Fragment

/-- The fragment as far as boxes tell it: a box break is the plain one, and neither it nor a
newline has an argument. -/
def reduced : Fragment → Fragment
  | control .newLine _ => control .newLine none
  | control .boxBreak _ | control .boxBreakDelayed _ | control .boxBreak2 _ =>
    control .boxBreak none
  | f => f

lemma reduced_eq (f : Fragment) :
    f.reduced = if f.isBoxBreak then control .boxBreak none
      else if f.isNewLine then control .newLine none else f := by
  cases f with
  | control code argument => cases code <;> rfl
  | text | color | button => rfl

end Fragment

namespace TextBox

/-- The fragments of a box, with a newline between two lines. -/
def fragments (box : TextBox) : List Fragment := [.control .newLine none].intercalate box

/-- The fragments of boxes, with a box break between two of them. -/
def fragmentsAll (boxes : List TextBox) : List Fragment :=
  [.control .boxBreak none].intercalate (boxes.map fragments)

/-- The boxes of a text that has no end in it: how many there are, how many lines each of them
has, what no line holds, and that they hold the text. -/
structure LaidOut (text : List Fragment) (boxes : List TextBox) : Prop where
  length_boxes : boxes.length = text.countP Fragment.isBoxBreak + 1
  length_lines : boxes.map List.length =
    (text.splitOnP Fragment.isBoxBreak).map fun stretch => stretch.countP Fragment.isNewLine + 1
  unbroken : ∀ box ∈ boxes, ∀ line ∈ box, ∀ f ∈ line,
    ¬ f.isNewLine ∧ ¬ f.isBoxBreak ∧ ¬ f.isStop
  joined : fragmentsAll boxes = text.map Fragment.reduced

variable {text : List Fragment} {box : TextBox} {boxes : List TextBox}

/-- Lines without a newline are told apart by those between them. -/
lemma splitOn_fragments (h : ∀ line ∈ box, ∀ f ∈ line, ¬ f.isNewLine) (hne : box ≠ []) :
    box.fragments.splitOn (.control .newLine none) = box :=
  List.splitOn_intercalate _ (fun line hline hmem => h line hline _ hmem rfl) hne

/-- What stands in the fragments of a box stands in a line or between two. -/
lemma mem_fragments {f : Fragment} (h : f ∈ box.fragments) :
    f = .control .newLine none ∨ ∃ line ∈ box, f ∈ line := by
  rw [fragments, List.intercalate] at h
  induction box with
  | nil => cases h
  | cons line lines ih =>
    cases lines with
    | nil =>
      right
      exact ⟨line, List.mem_cons_self, by simpa using h⟩
    | cons next lines =>
      rw [List.intersperse_cons_cons, List.flatten_cons, List.flatten_cons, List.mem_append,
        List.mem_append] at h
      rcases h with h | h | h
      · exact .inr ⟨line, List.mem_cons_self, h⟩
      · exact .inl (List.mem_singleton.mp h)
      · refine (ih h).imp_right ?_
        rintro ⟨line, hline, hf⟩
        exact ⟨line, List.mem_cons_of_mem _ hline, hf⟩

namespace LaidOut

lemma boxes_ne_nil (h : LaidOut text boxes) : boxes ≠ [] :=
  List.ne_nil_of_length_pos (h.length_boxes ▸ Nat.succ_pos _)

lemma ne_nil (h : LaidOut text boxes) (hbox : box ∈ boxes) : box ≠ [] := by
  have hlength : box.length ∈ boxes.map List.length := List.mem_map_of_mem hbox
  rw [h.length_lines] at hlength
  obtain ⟨stretch, -, hstretch⟩ := List.mem_map.mp hlength
  exact List.ne_nil_of_length_pos (hstretch ▸ Nat.succ_pos _)

/-- The fragments of boxes say what the boxes are. -/
lemma eq_splitOn (h : LaidOut text boxes) :
    boxes = ((text.map Fragment.reduced).splitOn (.control .boxBreak none)).map
      (List.splitOn (.control .newLine none)) := by
  have hboxes : (fragmentsAll boxes).splitOn (.control .boxBreak none) =
      boxes.map fragments := by
    refine List.splitOn_intercalate _ ?_ (List.map_eq_nil_iff.not.mpr h.boxes_ne_nil)
    intro parts hparts hmem
    obtain ⟨box, hbox, rfl⟩ := List.mem_map.mp hparts
    rcases mem_fragments hmem with heq | ⟨line, hline, hmem⟩
    · cases heq
    · exact (h.unbroken box hbox line hline _ hmem).2.1 rfl
  have hlines : ∀ box ∈ boxes, box.fragments.splitOn (.control .newLine none) = box :=
    fun box hbox => splitOn_fragments
      (fun line hline f hf => (h.unbroken box hbox line hline f hf).1) (h.ne_nil hbox)
  rw [← h.joined, hboxes, List.map_map, Function.comp_def, List.map_congr_left hlines,
    List.map_id']

end LaidOut

lemma fragments_cutAt (stretch : List Fragment) :
    fragments (cutAt Fragment.isNewLine stretch) =
      stretch.map fun f => if f.isNewLine then .control .newLine none else f := by
  calc fragments (cutAt Fragment.isNewLine stretch)
    _ = [.control .newLine none].intercalate
          ((cutAt Fragment.isNewLine stretch).map (List.map id)) := by
      rw [List.map_id_fun, List.map_id, fragments]
    _ = _ := intercalate_map_cutAt id _ stretch

/-- The boxes of fragments hold what stands in front of the end, in its order and each fragment
once, with one box more than there are box breaks and one line more than there are newlines in
each of them. They are the only ones that do. -/
theorem laidOut_ofFragments (fragments : List Fragment) :
    let text := fragments.takeWhile fun f => !f.isStop
    LaidOut text (ofFragments fragments) ∧
      ∀ boxes, LaidOut text boxes → boxes = ofFragments fragments := by
  intro text
  have hlaidOut : LaidOut text (ofFragments fragments) := by
    constructor
    case length_boxes => rw [ofFragments, List.length_map, length_cutAt]
    case length_lines =>
      rw [ofFragments, List.map_map, ← cutAt_eq_splitOnP]
      exact List.map_congr_left fun stretch _ => length_cutAt stretch
    case unbroken =>
      intro box hbox line hline f hf
      obtain ⟨stretch, hstretch, rfl⟩ := List.mem_map.mp hbox
      obtain ⟨hmem, hnewLine⟩ := mem_of_mem_cutAt line hline hf
      obtain ⟨hmem, hboxBreak⟩ := mem_of_mem_cutAt stretch hstretch hmem
      have hstop := List.all_eq_true.mp List.all_takeWhile f hmem
      exact ⟨hnewLine, hboxBreak, by simpa using hstop⟩
    case joined =>
      simp only [fragmentsAll, ofFragments, List.map_map, Function.comp_def, fragments_cutAt]
      rw [intercalate_map_cutAt]
      exact List.map_congr_left fun f _ => (f.reduced_eq).symm
  exact ⟨hlaidOut, fun boxes h => h.eq_splitOn.trans hlaidOut.eq_splitOn.symm⟩

/-- Breaks in front, behind and in a row leave empty lines, and nothing behind the end is
shown. -/
theorem laidOut_ofFragments_breaks :
    let text : List Fragment := [.control .boxBreakDelayed (some 60), .control .newLine none,
      .text "A", .control .newLine none, .control .newLine none, .control .boxBreak2 none]
    let boxes : List TextBox := [[[]], [[], [.text "A"], [], []], [[]]]
    let fragments := text ++ [.control .stop none, .text "B"]
    LaidOut text boxes ∧ boxes = ofFragments fragments := by
  intro text boxes fragments
  have h : LaidOut text boxes := ⟨rfl, rfl, by decide, rfl⟩
  exact ⟨h, (laidOut_ofFragments fragments).2 boxes h⟩

end TextBox
end Cartridge.Message
