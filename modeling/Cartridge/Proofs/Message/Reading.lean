import Cartridge.Message.Basic
import Cartridge.Proofs.Bytes.Numbers
import Cartridge.Proofs.Message.Pieces

/-!
# Reading a message

A reading of a text takes pieces off the front of the bytes until it comes to the end of the
message, to bytes that mean nothing, or to the end of the bytes. Every reading is one of these,
takes as many bytes as it takes wherever they stand, and answers accordingly: it succeeds exactly
where it comes to the end of the message, and gives what the pieces are joined to. A message is
read as its settings, where the encoding has such, and its text behind them; so every reading of
one ends in one of the same ways, or for want of settings.
-/
namespace Cartridge.Message

lemma Piece.lexeme_inj {p p' : Piece} {more more' : ℕ} (h : p.lexeme more = p'.lexeme more') :
    p = p' ∧ more = more' := by
  cases p <;> cases p' <;> cases h <;> exact ⟨rfl, rfl⟩

namespace Lexeme

/-- The argument of a control code is read once its bytes are all there. -/
lemma control_behind (code : Control) {size : ℕ} (hpos : 0 < size) (front rest : Bytes) :
    control code size front.length (front ++ rest) =
      if size ≤ rest.length then
        .fragment (.control code (some (Bytes.toNat (rest.take size)))) (front.length + size)
      else .short (front.length + 1) := by
  simp only [control, if_neg (Nat.ne_of_gt hpos)]
  split_ifs with hsize
  · have hslice : Bytes.slice? (front ++ rest) front.length size = some (rest.take size) := by
      rw [Bytes.slice?_eq_some, List.drop_left]
      exact ⟨rfl, List.length_take_of_le hsize⟩
    rw [hslice]
  · have hslice : Bytes.slice? (front ++ rest) front.length size = none := by
      rw [Bytes.slice?_eq_none_iff hpos, List.length_append]
      omega
    rw [hslice]

/-- Where a control code is read, its argument has as many bytes as it should. -/
lemma control_behind_eq_lexeme {code : Control} {size more : ℕ} {front rest : Bytes} {p : Piece}
    (h : control code size front.length (front ++ rest) = p.lexeme more) :
    (size = 0 ∧ more = front.length ∧ p = .fragment (.control code none)) ∨
      (0 < size ∧ more = front.length + size ∧ size ≤ rest.length ∧
        p = .fragment (.control code (some (Bytes.toNat (rest.take size))))) := by
  rcases Nat.eq_zero_or_pos size with rfl | hpos
  · left
    have hhead : (Piece.fragment (.control code none)).lexeme front.length = p.lexeme more := h
    obtain ⟨rfl, rfl⟩ := Piece.lexeme_inj hhead
    exact ⟨rfl, rfl, rfl⟩
  · right
    rw [control_behind code hpos] at h
    split_ifs at h with hsize
    · have hhead : (Piece.fragment (.control code (some (Bytes.toNat (rest.take size))))).lexeme
          (front.length + size) = p.lexeme more := h
      obtain ⟨rfl, rfl⟩ := Piece.lexeme_inj hhead
      exact ⟨hpos, rfl, hsize, rfl⟩
    · cases p <;> cases h

end Lexeme

/-- How a reading ends: with what it read, at bytes that mean nothing, or because there are
no more bytes. -/
inductive Ending (α : Type)
  | done (a : α)
  | bad (bytes : Bytes) (reason : Option Reason)
  | short

namespace Ending

variable {α β γ : Type}

/-- The ending with a function of what was read. -/
def map (f : α → β) : Ending α → Ending β
  | done a => done (f a)
  | bad bytes reason => bad bytes reason
  | short => short

/-- Whether the reading did not lack bytes. -/
def Settled : Ending α → Prop
  | short => False
  | _ => True

/-- What a reading with this ending answers that stops at a position. -/
def result (stop : ℕ) : Ending α → Except Error α
  | done a => .ok a
  | bad bytes reason => .error (.badSequence bytes reason)
  | short => .error (.unexpectedEnd stop)

lemma map_map (g : β → γ) (f : α → β) (ending : Ending α) :
    (ending.map f).map g = ending.map fun a => g (f a) := by
  cases ending <;> rfl

lemma settled_map_iff {f : α → β} {ending : Ending α} :
    (ending.map f).Settled ↔ ending.Settled := by
  cases ending <;> rfl

lemma map_eq_done {f : α → β} {ending : Ending α} {b : β} (h : ending.map f = .done b) :
    ∃ a, ending = .done a ∧ f a = b := by
  cases ending with
  | done a => exact ⟨a, rfl, Ending.done.inj h⟩
  | bad | short => cases h

lemma result_eq_ok {stop : ℕ} {ending : Ending α} {a : α} (h : ending.result stop = .ok a) :
    ending = .done a := by
  cases ending with
  | done b =>
    cases h
    rfl
  | bad | short => cases h

end Ending

namespace Lexer

variable {lexer : Lexer} {bytes : Bytes} {size : ℕ}

/-- A reading of the bytes that takes as many of them as the size tells. -/
inductive Reads (lexer : Lexer) : Bytes → ℕ → Ending (List Piece) → Prop
  | stop {b : UInt8} {rest : Bytes} {more : ℕ} (head : lexer b rest = .stop more) :
      Reads lexer (b :: rest) (1 + more) (.done [])
  | bad {b : UInt8} {rest : Bytes} {more : ℕ} {reason : Option Reason}
      (head : lexer b rest = .bad more reason) :
      Reads lexer (b :: rest) (1 + more) (.bad (b :: rest.take more) reason)
  | nothing : Reads lexer [] 0 .short
  | short {b : UInt8} {rest : Bytes} {taken : ℕ} (head : lexer b rest = .short taken) :
      Reads lexer (b :: rest) taken .short
  | piece {b : UInt8} {rest : Bytes} {piece : Piece} {more size : ℕ}
      {ending : Ending (List Piece)} (head : lexer b rest = piece.lexeme more)
      (tail : Reads lexer (rest.drop more) size ending) :
      Reads lexer (b :: rest) (1 + more + size) (ending.map (piece :: ·))

/-- Every reading ends in one of these ways. -/
theorem exists_reads (lexer : Lexer) (bytes : Bytes) :
    ∃ size ending, Reads lexer bytes size ending := by
  fun_induction readFrom lexer 0 [] bytes with
  | case1 => exact ⟨_, _, .nothing⟩
  | case2 pos before b rest c more head ih =>
    obtain ⟨size, ending, htail⟩ := ih
    have hhead : lexer b rest = (Piece.char c).lexeme more := head
    exact ⟨_, _, .piece hhead htail⟩
  | case3 pos before b rest f more head ih =>
    obtain ⟨size, ending, htail⟩ := ih
    have hhead : lexer b rest = (Piece.fragment f).lexeme more := head
    exact ⟨_, _, .piece hhead htail⟩
  | case4 pos before b rest more head => exact ⟨_, _, .stop head⟩
  | case5 pos before b rest more reason head => exact ⟨_, _, .bad head⟩
  | case6 pos before b rest taken head => exact ⟨_, _, .short head⟩

lemma readFrom_of_reads {ending : Ending (List Piece)} (h : Reads lexer bytes size ending)
    (pos : ℕ) (before : List Fragment) :
    readFrom lexer pos before bytes =
      ((ending.map fun pieces =>
        (Fragment.control .stop none :: pieces.foldl Piece.pushOnto before).reverse).result
          (pos + size), pos + size) := by
  induction h generalizing pos before with
  | stop head =>
    simp only [readFrom, head, Ending.map, Ending.result, List.foldl_nil, Nat.add_assoc]
  | bad head => simp only [readFrom, head, Ending.map, Ending.result, Nat.add_assoc]
  | nothing => simp only [readFrom, Ending.map, Ending.result, Nat.add_zero]
  | short head => simp only [readFrom, head, Ending.map, Ending.result]
  | @piece b rest piece more size ending head tail ih =>
    have hpos : pos + 1 + more + size = pos + (1 + more + size) := by omega
    rw [Ending.map_map]
    cases piece <;>
      simp only [readFrom, head, Piece.lexeme, ih, hpos, List.foldl_cons, Piece.pushOnto]

/-- What a reading answers, and where it leaves the cursor. -/
theorem read_of_reads {ending : Ending (List Piece)} {c : Cursor}
    (h : Reads lexer c.rest size ending) :
    read lexer c =
      ((ending.map fun pieces => Piece.join pieces ++ [.control .stop none]).result (c.pos + size),
        c.advance size) := by
  rw [read, readFrom_of_reads h]
  simp [Piece.join, Cursor.advance]

/-- A reading that takes pieces off the bytes and comes to the end of the message. -/
def Takes (lexer : Lexer) (bytes : Bytes) (pieces : List Piece) (size : ℕ) : Prop :=
  Reads lexer bytes size (.done pieces)

namespace Takes

variable {pieces : List Piece}

lemma stop {b : UInt8} {rest : Bytes} {more : ℕ} (head : lexer b rest = .stop more) :
    Takes lexer (b :: rest) [] (1 + more) :=
  Reads.stop head

lemma piece {b : UInt8} {rest : Bytes} {piece : Piece} {more : ℕ}
    (head : lexer b rest = piece.lexeme more) (tail : Takes lexer (rest.drop more) pieces size) :
    Takes lexer (b :: rest) (piece :: pieces) (1 + more + size) :=
  Reads.piece head tail

/-- Induction on the pieces taken: the end of the message, and one piece in front of others. -/
@[elab_as_elim]
theorem induction {motive : ∀ bytes pieces size, Takes lexer bytes pieces size → Prop}
    (stop : ∀ {b rest more} (head : lexer b rest = .stop more),
      motive (b :: rest) [] (1 + more) (.stop head))
    (piece : ∀ {b rest piece pieces more size} (head : lexer b rest = Piece.lexeme more piece)
      (tail : Takes lexer (rest.drop more) pieces size), motive (rest.drop more) pieces size tail →
      motive (b :: rest) (piece :: pieces) (1 + more + size) (.piece head tail))
    {bytes : Bytes} {pieces : List Piece} {size : ℕ} (h : Takes lexer bytes pieces size) :
    motive bytes pieces size h := by
  obtain ⟨ending, hending⟩ : ∃ ending, ending = Ending.done pieces := ⟨_, rfl⟩
  have hreads : Reads lexer bytes size ending := hending ▸ h
  induction hreads generalizing pieces with
  | stop head =>
    cases hending
    exact stop head
  | bad | nothing | short => cases hending
  | piece head tail ih =>
    obtain ⟨behind, rfl, rfl⟩ := Ending.map_eq_done hending
    exact piece head tail (ih tail rfl)

lemma of_cons {p : Piece} (h : Takes lexer bytes (p :: pieces) size) :
    ∃ b rest more behind, bytes = b :: rest ∧ size = 1 + more + behind ∧
      lexer b rest = p.lexeme more ∧ Takes lexer (rest.drop more) pieces behind := by
  obtain ⟨all, hall⟩ : ∃ all, all = p :: pieces := ⟨_, rfl⟩
  rw [← hall] at h
  induction h using Takes.induction with
  | stop => cases hall
  | @piece b rest p' pieces' more size head tail =>
    cases hall
    exact ⟨b, rest, more, size, rfl, rfl, head, tail⟩

end Takes

/-- Reading succeeds exactly where the lexer takes pieces up to an end. -/
theorem read_eq_ok_iff {c c' : Cursor} {fragments : List Fragment} :
    read lexer c = (.ok fragments, c') ↔
      ∃ pieces size, Takes lexer c.rest pieces size ∧
        fragments = Piece.join pieces ++ [.control .stop none] ∧ c' = c.advance size := by
  constructor
  · intro h
    obtain ⟨size, ending, hreads⟩ := exists_reads lexer c.rest
    rw [read_of_reads hreads] at h
    obtain ⟨hresult, rfl⟩ := Prod.mk.inj h
    obtain ⟨pieces, rfl, rfl⟩ := Ending.map_eq_done (Ending.result_eq_ok hresult)
    exact ⟨pieces, size, hreads, rfl, rfl⟩
  · rintro ⟨pieces, size, htakes, rfl, rfl⟩
    exact read_of_reads htakes

/-- The lexer reads a piece off bytes, whatever stands behind them. -/
def ReadsOff (lexer : Lexer) (part : Bytes) (p : Piece) : Prop :=
  ∃ b tail, part = b :: tail ∧ ∀ rest, lexer b (tail ++ rest) = p.lexeme tail.length

/-- The items are what the lexer reads a piece off, and the message ends at the bytes
`first :: behind` and at no others. -/
structure Grammar (lexer : Lexer) (Item : Bytes → Piece → Prop) (first : UInt8)
    (behind : Bytes) : Prop where
  readsOff : ∀ {part p}, Item part p → lexer.ReadsOff part p
  item_of_lexer : ∀ {b rest p more}, lexer b rest = Piece.lexeme more p →
    more ≤ rest.length ∧ Item (b :: rest.take more) p
  stop_iff : ∀ {b rest more}, lexer b rest = .stop more ↔
    more = behind.length ∧ ∃ after, b :: rest = first :: (behind ++ after)

/-- The lexer takes exactly the pieces of items off exactly their bytes and the end. -/
theorem Grammar.takes_iff {Item : Bytes → Piece → Prop} {first : UInt8} {behind : Bytes}
    {pieces : List Piece} (h : Grammar lexer Item first behind) :
    Takes lexer bytes pieces size ↔
      ∃ parts after, List.Forall₂ Item parts pieces ∧
        bytes = parts.flatten ++ first :: (behind ++ after) ∧
        size = parts.flatten.length + (1 + behind.length) := by
  constructor
  · intro htakes
    induction htakes using Takes.induction with
    | @stop b rest more head =>
      obtain ⟨rfl, after, hbytes⟩ := h.stop_iff.mp head
      exact ⟨[], after, .nil, hbytes, (Nat.zero_add _).symm⟩
    | @piece b rest p pieces more size head tail ih =>
      obtain ⟨parts, after, hitems, hbytes, rfl⟩ := ih
      obtain ⟨hle, hitem⟩ := h.item_of_lexer head
      refine ⟨_, after, .cons hitem hitems, ?_, ?_⟩
      · rw [List.flatten_cons, List.append_assoc, ← hbytes, List.cons_append,
          List.take_append_drop]
      · rw [List.flatten_cons, List.length_append, List.length_cons,
          List.length_take_of_le hle]
        omega
  · rintro ⟨parts, after, hitems, rfl, rfl⟩
    induction hitems with
    | nil =>
      rw [List.flatten_nil, List.length_nil, Nat.zero_add]
      exact .stop (h.stop_iff.mpr ⟨rfl, after, rfl⟩)
    | @cons part p parts pieces hitem hitems ih =>
      obtain ⟨b, tail, rfl, hhead⟩ := h.readsOff hitem
      have hsize : ((b :: tail) :: parts).flatten.length + (1 + behind.length) =
          1 + tail.length + (parts.flatten.length + (1 + behind.length)) := by
        rw [List.flatten_cons, List.length_append, List.length_cons]
        omega
      rw [hsize, List.flatten_cons, List.append_assoc, List.cons_append]
      refine .piece (hhead _) ?_
      rw [List.drop_left]
      exact ih

end Lexer

/-- The number of bytes in front of the text. -/
def Encoding.headerSize (encoding : Encoding) : ℕ :=
  if encoding.hasHeader then BoxSettings.size else 0

/-- The settings in front of the text, where the encoding has such, when the bytes of them are
all there. -/
def Encoding.settings? (encoding : Encoding) (bytes : Bytes) : Option (Option BoxSettings) :=
  if encoding.hasHeader then (BoxSettings.ofBytes? (bytes.take BoxSettings.size)).map some
  else some none

lemma BoxSettings.isSome_ofBytes?_iff {bytes : Bytes} :
    (ofBytes? bytes).isSome ↔ size ≤ bytes.length := by
  iterate 11
    rcases bytes with _ | ⟨_, bytes⟩
    · simp [ofBytes?, size]
  simp [ofBytes?, size]

lemma Encoding.isSome_settings?_iff {encoding : Encoding} {bytes : Bytes} :
    (encoding.settings? bytes).isSome ↔ encoding.headerSize ≤ bytes.length := by
  unfold settings? headerSize
  split
  · rw [Option.isSome_map, BoxSettings.isSome_ofBytes?_iff, List.length_take]
    omega
  · simp

/-- A reading of a message, settings and text, off the bytes. -/
inductive Reads (encoding : Encoding) : Bytes → ℕ → Ending Message → Prop
  | header {bytes : Bytes} (hnone : encoding.settings? bytes = none) :
      Reads encoding bytes bytes.length .short
  | text {bytes : Bytes} {settings : Option BoxSettings} {size : ℕ}
      {ending : Ending (List Piece)} (hsettings : encoding.settings? bytes = some settings)
      (htext : encoding.lexer.Reads (bytes.drop encoding.headerSize) size ending) :
      Reads encoding bytes (encoding.headerSize + size)
        (ending.map fun pieces => ⟨settings, Piece.join pieces ++ [.control .stop none]⟩)

theorem exists_reads (encoding : Encoding) (bytes : Bytes) :
    ∃ size ending, Reads encoding bytes size ending := by
  cases hsettings : encoding.settings? bytes with
  | none => exact ⟨_, _, .header hsettings⟩
  | some settings =>
    obtain ⟨size, ending, htext⟩ :=
      encoding.lexer.exists_reads (bytes.drop encoding.headerSize)
    exact ⟨_, _, .text hsettings htext⟩

/-- A message is its settings and its text. -/
lemma readAt_eq (encoding : Encoding) (c : Cursor) :
    readAt encoding c =
      match encoding.settings? c.rest with
      | none =>
        (.error (.unexpectedEnd (c.pos + c.rest.length)), c.advance c.rest.length)
      | some settings =>
        let (result, c) := encoding.lexer.read (c.advance encoding.headerSize)
        (result.map (⟨settings, ·⟩), c) := by
  have hremaining : c.remaining = c.rest.length := (List.length_drop ..).symm
  unfold readAt Encoding.settings? Encoding.headerSize
  by_cases hheader : encoding.hasHeader
  · simp only [hheader, if_true, BoxSettings.read, hremaining]
    cases BoxSettings.ofBytes? (c.rest.take BoxSettings.size) <;> rfl
  · simp only [hheader, Bool.false_eq_true, if_false]
    rfl

/-- What reading a message answers, and where it leaves the cursor. -/
theorem readAt_of_reads {encoding : Encoding} {c : Cursor} {size : ℕ} {ending : Ending Message}
    (h : Reads encoding c.rest size ending) :
    readAt encoding c = (ending.result (c.pos + size), c.advance size) := by
  generalize hbytes : c.rest = bytes at h
  cases h with
  | header hnone =>
    rw [readAt_eq, hbytes, hnone]
    rfl
  | @text settings size ending hsettings htext =>
    have hrest : (c.advance encoding.headerSize).rest = bytes.drop encoding.headerSize := by
      rw [← hbytes, Cursor.rest, Cursor.rest, List.drop_drop]
      rfl
    rw [← hrest] at htext
    rw [readAt_eq, hbytes, hsettings, Lexer.read_of_reads htext]
    cases ending <;>
      simp [Ending.map, Ending.result, Except.map, Cursor.advance, Nat.add_assoc]

lemma read_of_reads {encoding : Encoding} {bytes : Bytes} {offset size : ℕ}
    {ending : Ending Message} (h : Reads encoding (bytes.drop offset) size ending) :
    read encoding bytes offset = ending.result (offset + size) :=
  congrArg Prod.fst (readAt_of_reads (c := ⟨bytes, offset⟩) h)

end Cartridge.Message
