import Cartridge.Message.Lexeme
import Mathlib.Data.List.Chain
import Mathlib.Data.List.Induction
import Mathlib.Data.Nat.Notation
import Mathlib.Tactic.Lemma

/-!
# Pieces of messages

A lexeme adds one piece to a message, a character or a fragment, and characters
that follow one another are joined. In fragments that were joined no text is empty
and no text follows a text. Such fragments are the same thing as their pieces.
-/
namespace Cartridge.Message

namespace Fragment

def isText : Fragment → Bool
  | text _ => true
  | _ => false

/-- The pieces that a fragment is joined of. -/
def pieces : Fragment → List Piece
  | text run => run.toList.map .char
  | f => [.fragment f]

/-- Fragments in which no text is empty or follows a text. -/
structure Joined (fragments : List Fragment) : Prop where
  text_ne : ∀ run, text run ∈ fragments → run ≠ ""
  apart : fragments.IsChain fun f g => ¬ (f.isText ∧ g.isText)

lemma pieces_of_not_isText {f : Fragment} (h : ¬ f.isText) : f.pieces = [.fragment f] := by
  cases f with
  | text run => exact absurd rfl h
  | color | button | control => rfl

end Fragment

namespace Piece

open Fragment (Joined)

/-- Adds a piece to fragments of which the last comes first. -/
def pushOnto (before : List Fragment) : Piece → List Fragment
  | char c => Fragment.pushChar c before
  | fragment f => f :: before

/-- The fragments that pieces are joined to. -/
def join (pieces : List Piece) : List Fragment := (pieces.foldl pushOnto []).reverse

/-- No piece is a whole run of text. -/
def Single (pieces : List Piece) : Prop := ∀ f, fragment f ∈ pieces → ¬ f.isText

lemma pushChar_text (c : Char) (run : String) (before : List Fragment) :
    Fragment.pushChar c (.text run :: before) = .text (run.push c) :: before := rfl

lemma pushChar_of_not_isText {before : List Fragment}
    (h : ∀ f ∈ before.head?, ¬ f.isText) (c : Char) :
    Fragment.pushChar c before = .text (String.singleton c) :: before := by
  cases before with
  | nil => rfl
  | cons f before =>
    cases f with
    | text run => exact absurd rfl (h _ rfl)
    | color | button | control => rfl

lemma foldl_chars (run : String) (cs : List Char) (before : List Fragment) :
    (cs.map char).foldl pushOnto (.text run :: before) =
      .text (run ++ String.ofList cs) :: before := by
  induction cs generalizing run with
  | nil => simp
  | cons c cs ih =>
    have hpush : run.push c ++ String.ofList cs = run ++ String.ofList (c :: cs) := by
      apply String.toList_inj.mp
      simp
    rw [List.map_cons, List.foldl_cons, pushOnto, pushChar_text, ih, hpush]

/-- The pieces of a fragment are joined to the fragment. -/
lemma foldl_pieces {f : Fragment} {before : List Fragment} (hne : ∀ run, f = .text run → run ≠ "")
    (h : ∀ g ∈ before.head?, ¬ (g.isText ∧ f.isText)) :
    f.pieces.foldl pushOnto before = f :: before := by
  cases f with
  | text run =>
    have hhead : ∀ g ∈ before.head?, ¬ g.isText := fun g hg htext => h g hg ⟨htext, rfl⟩
    have hrun : run.toList ≠ [] := by
      intro hnil
      exact hne run rfl (String.toList_inj.mp hnil)
    obtain ⟨c, cs, hcs⟩ := List.exists_cons_of_ne_nil hrun
    have hsingle : String.singleton c ++ String.ofList cs = run := by
      apply String.toList_inj.mp
      simp [hcs]
    rw [Fragment.pieces, hcs, List.map_cons, List.foldl_cons, pushOnto,
      pushChar_of_not_isText hhead, foldl_chars, hsingle]
  | color | button | control => rfl

/-- Fragments that were joined are joined again of their pieces. -/
theorem join_pieces {fragments : List Fragment} (h : Joined fragments) :
    join (fragments.flatMap Fragment.pieces) = fragments := by
  have hfold : ∀ (fragments before : List Fragment), Joined (before.reverse ++ fragments) →
      (fragments.flatMap Fragment.pieces).foldl pushOnto before = fragments.reverse ++ before := by
    intro fragments
    induction fragments with
    | nil => intro before _; rfl
    | cons f fragments ih =>
      intro before h
      have hhead : ∀ g ∈ before.head?, ¬ (g.isText ∧ f.isText) := by
        intro g hg
        have hlast : before.reverse.getLast? = some g := by
          rw [List.getLast?_reverse]
          exact hg
        exact (List.isChain_append.mp h.apart).2.2 g hlast f rfl
      have hne : ∀ run, f = .text run → run ≠ "" := by
        rintro run rfl
        exact h.text_ne run (by simp)
      rw [List.flatMap_cons, List.foldl_append, foldl_pieces hne hhead, ih]
      · simp
      · simpa using h
  rw [join, hfold fragments [] (by simpa using h), List.append_nil, List.reverse_reverse]

lemma join_concat (pieces : List Piece) (piece : Piece) :
    join (pieces ++ [piece]) = (piece.pushOnto (join pieces).reverse).reverse := by
  simp [join]

lemma length_pushOnto_le (before : List Fragment) (piece : Piece) :
    (piece.pushOnto before).length ≤ before.length + 1 := by
  cases piece with
  | fragment f => exact Nat.le_refl _
  | char c =>
    rcases before with _ | ⟨f, before⟩
    · exact Nat.le_refl _
    · cases f with
      | text run => exact Nat.le_succ _
      | color | button | control => exact Nat.le_refl _

/-- Pieces are joined to no more fragments than there are pieces. -/
lemma length_join_le (pieces : List Piece) : (join pieces).length ≤ pieces.length := by
  induction pieces using List.reverseRecOn with
  | nil => exact Nat.le_refl _
  | append_singleton pieces piece ih =>
    have hpush := length_pushOnto_le (join pieces).reverse piece
    rw [List.length_reverse] at hpush
    rw [join_concat, List.length_reverse, List.length_append, List.length_singleton]
    omega

lemma joined_concat {fragments : List Fragment} {f : Fragment} (h : Joined fragments)
    (hne : ∀ run, f = .text run → run ≠ "")
    (hlast : ∀ g ∈ fragments.getLast?, ¬ (g.isText ∧ f.isText)) : Joined (fragments ++ [f]) where
  text_ne run hmem := by
    rcases List.mem_append.mp hmem with hmem | hmem
    · exact h.text_ne run hmem
    · exact hne run (List.mem_singleton.mp hmem).symm
  apart := by
    refine List.isChain_append.mpr ⟨h.apart, List.isChain_singleton f, ?_⟩
    intro g hg _ hhead
    cases hhead
    exact hlast g hg

/-- Pieces are joined to fragments of which no text is empty or follows a text, and
which have the same pieces. -/
theorem joined_join {pieces : List Piece} (h : Single pieces) :
    Joined (join pieces) ∧ (join pieces).flatMap Fragment.pieces = pieces := by
  induction pieces using List.reverseRecOn with
  | nil => exact ⟨⟨by simp [join], by simp [join]⟩, rfl⟩
  | append_singleton pieces piece ih =>
    obtain ⟨hjoined, hpieces⟩ := ih fun f hf => h f (List.mem_append_left _ hf)
    rw [join_concat]
    cases piece with
    | fragment f =>
      have hf : ¬ f.isText := h f (by simp)
      have hne : ∀ run, f = .text run → run ≠ "" := by
        rintro run rfl
        exact absurd rfl hf
      rw [pushOnto, List.reverse_cons, List.reverse_reverse]
      refine ⟨joined_concat hjoined hne fun g _ htext => hf htext.2, ?_⟩
      simp [hpieces, Fragment.pieces_of_not_isText hf]
    | char c =>
      by_cases hlast : ∃ run before, (join pieces).reverse = .text run :: before
      · obtain ⟨run, before, hreverse⟩ := hlast
        have hbefore : join pieces = before.reverse ++ [.text run] := by
          rw [← List.reverse_reverse (join pieces), hreverse, List.reverse_cons]
        rw [hbefore] at hjoined hpieces
        have hchain := List.isChain_append.mp hjoined.apart
        rw [hreverse, pushOnto, pushChar_text, List.reverse_cons]
        refine ⟨joined_concat ⟨?_, hchain.1⟩ ?_ ?_, ?_⟩
        · intro run hmem
          exact hjoined.text_ne run (List.mem_append_left _ hmem)
        · intro run' hrun
          cases hrun
          simp
        · intro g hg htext
          exact hchain.2.2 g hg (.text run) rfl ⟨htext.1, rfl⟩
        · rw [← hpieces]
          simp [Fragment.pieces]
      · have hhead : ∀ f ∈ (join pieces).reverse.head?, ¬ f.isText := by
          intro f hf htext
          cases f with
          | text run =>
            obtain ⟨before, hbefore⟩ := List.head?_eq_some_iff.mp hf
            exact hlast ⟨run, before, hbefore⟩
          | color | button | control => cases htext
        rw [pushOnto, pushChar_of_not_isText hhead, List.reverse_cons, List.reverse_reverse]
        refine ⟨joined_concat hjoined ?_ ?_, ?_⟩
        · intro run hrun
          cases hrun
          simp
        · intro g hg htext
          rw [← List.head?_reverse] at hg
          exact hhead g hg htext.1
        · simp [hpieces, Fragment.pieces]

end Piece

end Cartridge.Message
