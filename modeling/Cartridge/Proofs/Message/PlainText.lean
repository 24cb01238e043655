import Cartridge.Proofs.Message.NormalForm
import Cartridge.Proofs.Message.Reading
import Cartridge.Proofs.Result

/-!
# The text of the boxes

A player reads a message box by box and line by line. The text of a box is that of its lines
with a newline between two of them, and between two boxes there is an empty line. Put together
so, the boxes say what the fragments in front of the end say: each code that cuts stands for the
text that joins the parts again.
-/
namespace Cartridge.Message

def TextBox.plain (box : TextBox) : String := "\n".intercalate (box.map Fragment.plainAll)

def TextBox.plainAll (boxes : List TextBox) : String := "\n\n".intercalate (boxes.map TextBox.plain)

section Cutting

variable {α : Type} {isCut : α → Bool} {a : α} {l part : List α} {parts : List (List α)}

lemma cutAt_cons_of_isCut (h : isCut a) (l : List α) :
    cutAt isCut (a :: l) = [] :: cutAt isCut l := by rw [cutAt, if_pos h]

lemma cutAt_cons_of_not_isCut (h : ¬ isCut a) (hl : cutAt isCut l = part :: parts) :
    cutAt isCut (a :: l) = (a :: part) :: parts := by rw [cutAt, if_neg h, hl]

lemma exists_cutAt (isCut : α → Bool) (l : List α) :
    ∃ part parts, cutAt isCut l = part :: parts := by
  induction l with
  | nil => exact ⟨[], [], rfl⟩
  | cons a l ih =>
    by_cases h : isCut a
    · exact ⟨[], cutAt isCut l, cutAt_cons_of_isCut h l⟩
    · obtain ⟨part, parts, hl⟩ := ih
      exact ⟨a :: part, parts, cutAt_cons_of_not_isCut h hl⟩

/-- The texts of the parts, with that of a cut between two of them, are the text of the whole. -/
theorem intercalate_cutAt {text : α → String} {separator : String}
    (h : ∀ a, isCut a → text a = separator) (l : List α) :
    separator.intercalate ((cutAt isCut l).map fun part => String.join (part.map text)) =
      String.join (l.map text) := by
  induction l with
  | nil => simp [cutAt]
  | cons a l ih =>
    obtain ⟨part, parts, hl⟩ := exists_cutAt isCut l
    by_cases hcut : isCut a
    · rw [hl] at ih
      simp [cutAt_cons_of_isCut hcut, hl, h a hcut, ← ih]
    · rw [hl] at ih
      simp [cutAt_cons_of_not_isCut hcut hl, ← ih]

end Cutting

namespace Fragment

lemma plain_of_isNewLine {f : Fragment} (h : f.isNewLine) : f.plain = "\n" := by
  cases f with
  | control code argument =>
    obtain rfl : code = .newLine := by simpa [isNewLine, code?] using h
    rfl
  | text | color | button => cases h

lemma plain_of_isBoxBreak {f : Fragment} (h : f.isBoxBreak) : f.plain = "\n\n" := by
  cases f with
  | control code argument =>
    have hcode : code.isBoxBreak := by simpa [isBoxBreak, code?] using h
    have hlines : ¬ (code = .newLine ∨ code = .carriageReturn) := by
      rintro (rfl | rfl) <;> cases hcode
    rw [plain, if_neg hlines, if_pos hcode]
  | text | color | button => cases h

lemma plain_of_isStop {f : Fragment} (h : f.isStop) : f.plain = "" := by
  cases f with
  | control code argument =>
    obtain rfl : code = .stop := by simpa [isStop, code?] using h
    rfl
  | text | color | button => cases h

/-- Nothing stands behind an end of the message. -/
def Finished (fragments : List Fragment) : Prop :=
  ∀ before f behind, fragments = before ++ f :: behind → f.isStop → behind = []

lemma finished_concat {before : List Fragment} (h : ∀ f ∈ before, ¬ f.isStop) (last : Fragment) :
    Finished (before ++ [last]) := by
  intro front f behind heq hstop
  rcases List.eq_nil_or_concat behind with rfl | ⟨behind, g, rfl⟩
  · rfl
  · have hbefore : before = front ++ f :: behind := by
      have hconcat : before ++ [last] = (front ++ f :: behind) ++ [g] := by simpa using heq
      exact (List.append_inj' hconcat rfl).1
    exact absurd hstop (h f (by simp [hbefore]))

/-- The end and what stands in front of it are all that a player reads. -/
lemma plainAll_takeWhile {fragments : List Fragment} (h : Finished fragments) :
    plainAll (fragments.takeWhile fun f => !f.isStop) = plainAll fragments := by
  have hsplit := List.takeWhile_append_dropWhile (p := fun f : Fragment => !f.isStop)
    (l := fragments)
  cases hdrop : fragments.dropWhile fun f => !f.isStop with
  | nil =>
    rw [hdrop, List.append_nil] at hsplit
    rw [hsplit]
  | cons f behind =>
    have hstop : f.isStop := by
      have hhead := List.head?_dropWhile_not (fun f : Fragment => !f.isStop) fragments
      simpa [hdrop] using hhead
    rw [hdrop] at hsplit
    obtain rfl : behind = [] := h _ f behind hsplit.symm hstop
    conv_rhs => rw [← hsplit]
    simp [plainAll, plain_of_isStop hstop]

end Fragment

lemma TextBox.plain_cutAt (fragments : List Fragment) :
    TextBox.plain (cutAt Fragment.isNewLine fragments) = Fragment.plainAll fragments :=
  intercalate_cutAt (fun _ => Fragment.plain_of_isNewLine) fragments

/-- The boxes say what the fragments say in front of the end. -/
theorem TextBox.plainAll_ofFragments (fragments : List Fragment) :
    TextBox.plainAll (TextBox.ofFragments fragments) =
      Fragment.plainAll (fragments.takeWhile fun f => !f.isStop) := by
  simp only [TextBox.plainAll, TextBox.ofFragments, List.map_map, Function.comp_def,
    TextBox.plain_cutAt]
  exact intercalate_cutAt (fun _ => Fragment.plain_of_isBoxBreak) _

lemma finished_of_read {encoding : Encoding} {bytes : Bytes} {offset : ℕ} {m : Message}
    (h : read encoding bytes offset = .ok m) : Fragment.Finished m.fragments := by
  have hread : (readAt encoding ⟨bytes, offset⟩).1 = .ok m := h
  rw [readAt_eq] at hread
  split at hread
  · cases hread
  · next settings hsettings =>
    obtain ⟨fragments, hfragments, rfl⟩ := map_eq_ok.mp hread
    obtain ⟨pieces, size, htakes, rfl, -⟩ := Lexer.read_eq_ok_iff.mp (Prod.ext hfragments rfl)
    obtain ⟨before, heq, hnot⟩ := (Encoding.normalForm_join htakes.proper.1).ends
    rw [heq]
    apply Fragment.finished_concat
    intro f hf hstop
    exact hnot f hf (by simpa [Fragment.isStop] using hstop)

/-- The boxes of a message say what the message says, of every message that is read and of all
fragments with nothing behind an end. -/
theorem plainAll_boxes :
    (∀ (encoding : Encoding) (bytes : Bytes) (offset : ℕ) (m : Message),
      read encoding bytes offset = .ok m → TextBox.plainAll m.boxes = m.plainText) ∧
    ∀ fragments : List Fragment, Fragment.Finished fragments →
      TextBox.plainAll (TextBox.ofFragments fragments) = Fragment.plainAll fragments := by
  have hfinished : ∀ fragments : List Fragment, Fragment.Finished fragments →
      TextBox.plainAll (TextBox.ofFragments fragments) = Fragment.plainAll fragments := by
    intro fragments h
    rw [TextBox.plainAll_ofFragments, Fragment.plainAll_takeWhile h]
  exact ⟨fun encoding bytes offset m h => hfinished m.fragments (finished_of_read h), hfinished⟩

/-- Two lines in the first box and one in the second are read, and text that has no end yet. -/
theorem plainAll_boxes_two_lines :
    let bytes := [0x41, 0x01, 0x42, 0x04, 0x43, 0x02]
    let before : List Fragment := [.text "A", .control .newLine none, .text "B",
      .control .boxBreak none, .text "C"]
    let m : Message := ⟨none, before ++ [.control .stop none]⟩
    read .ootAscii bytes 0 = .ok m ∧ TextBox.plainAll m.boxes = m.plainText ∧
      Fragment.Finished before ∧
      TextBox.plainAll (TextBox.ofFragments before) = Fragment.plainAll before := by
  intro bytes before m
  have htakes : Lexer.Takes Encoding.ootAscii.lexer bytes [.char 'A',
      .fragment (.control .newLine none), .char 'B', .fragment (.control .boxBreak none),
      .char 'C'] (1 + 0 + (1 + 0 + (1 + 0 + (1 + 0 + (1 + 0 + (1 + 0)))))) :=
    .piece rfl (.piece rfl (.piece rfl (.piece rfl (.piece rfl (.stop rfl)))))
  have hlexer : Encoding.ootAscii.lexer.read ⟨bytes, 0⟩ = (.ok m.fragments, ⟨bytes, 6⟩) :=
    Lexer.read_eq_ok_iff.mpr ⟨_, _, htakes, by decide, rfl⟩
  have hread : read .ootAscii bytes 0 = .ok m := by
    change (Encoding.ootAscii.lexer.read ⟨bytes, 0⟩).1.map _ = _
    rw [hlexer]
    rfl
  have hfinished : Fragment.Finished before := by
    change Fragment.Finished (before.dropLast ++ [.text "C"])
    apply Fragment.finished_concat
    decide
  exact ⟨hread, plainAll_boxes.1 _ _ _ _ hread, hfinished, plainAll_boxes.2 _ hfinished⟩

end Cartridge.Message
