import Cartridge.Proofs.Message.CodePage
import Cartridge.Proofs.Message.Reading
import Mathlib.Data.List.Infix

/-!
# Reading looks at nothing but what it reads

A lexeme is decided by its own bytes: other bytes behind it change nothing, and where one of
its bytes is cut off it lacks bytes. From lexeme to lexeme the same holds of a message. So a
message may be bounded anywhere behind its end, and bounding it before its end never makes
another message of it.
-/
namespace Cartridge.Message

namespace Lexeme

/-- The number of bytes behind the first of a lexeme whose bytes are all there. -/
def more? : Lexeme → Option ℕ
  | char _ more | fragment _ more | stop more | bad more _ => some more
  | short _ => none

lemma more?_lexeme (p : Piece) (more : ℕ) : (p.lexeme more).more? = some more := by
  cases p <;> rfl

/-- A rule that reads a lexeme of which the first byte and `seen` others are known off the
bytes behind them looks at nothing but the bytes of the lexeme. -/
structure Local (seen : ℕ) (rule : Bytes → Lexeme) : Prop where
  within : ∀ {rest more}, (rule rest).more? = some more →
    seen ≤ more ∧ more ≤ seen + rest.length
  stable : ∀ {rest more}, (rule rest).more? = some more →
    ∀ {rest'}, rest.take (more - seen) <+: rest' → rule rest' = rule rest
  cut : ∀ {rest more}, (rule rest).more? = some more →
    ∀ {n}, seen + n < more → ∃ taken, rule (rest.take n) = .short taken

/-- A lexeme that is known by now does not depend on the bytes behind. -/
lemma local_const {seen : ℕ} {lexeme : Lexeme} (h : ∀ more ∈ lexeme.more?, more = seen) :
    Local seen fun _ => lexeme where
  within hmore := by
    rw [h _ hmore]
    omega
  stable _ := fun _ => rfl
  cut hmore := fun hn => by
    rw [h _ hmore] at hn
    omega

/-- A rule may look at one byte more, when it lacks it where it is not there. -/
lemma local_next {seen : ℕ} {rule : Bytes → Lexeme} (hnil : ∃ taken, rule [] = .short taken)
    (hcons : ∀ b, Local (seen + 1) fun rest => rule (b :: rest)) : Local seen rule where
  within := by
    intro rest more hmore
    cases rest with
    | nil =>
      obtain ⟨taken, htaken⟩ := hnil
      rw [htaken] at hmore
      cases hmore
    | cons b rest =>
      have := (hcons b).within hmore
      rw [List.length_cons]
      omega
  stable := by
    intro rest more hmore rest' hbytes
    cases rest with
    | nil =>
      obtain ⟨taken, htaken⟩ := hnil
      rw [htaken] at hmore
      cases hmore
    | cons b rest =>
      obtain ⟨hseen, -⟩ := (hcons b).within hmore
      have htake : more - seen = more - (seen + 1) + 1 := by omega
      rw [htake, List.take_succ_cons] at hbytes
      obtain ⟨rest'', rfl, htail⟩ := List.cons_prefix_iff.mp hbytes
      exact (hcons b).stable hmore htail
  cut := by
    intro rest more hmore n hn
    cases rest with
    | nil => rwa [List.take_nil]
    | cons b rest =>
      cases n with
      | zero => rwa [List.take_zero]
      | succ n => exact (hcons b).cut hmore (by omega)

lemma local_control (code : Control) (size : ℕ) (front : Bytes) :
    Local front.length fun rest => control code size front.length (front ++ rest) := by
  rcases Nat.eq_zero_or_pos size with rfl | hpos
  · exact local_const (by simp [more?])
  have hmore_eq : ∀ {rest more},
      (control code size front.length (front ++ rest)).more? = some more →
        size ≤ rest.length ∧ more = front.length + size := by
    intro rest more hmore
    rw [control_behind code hpos] at hmore
    split_ifs at hmore with hsize
    · cases hmore
      exact ⟨hsize, rfl⟩
    · cases hmore
  constructor
  case within =>
    intro rest more hmore
    obtain ⟨hsize, rfl⟩ := hmore_eq hmore
    omega
  case stable =>
    intro rest more hmore rest' hbytes
    obtain ⟨hsize, rfl⟩ := hmore_eq hmore
    rw [Nat.add_sub_cancel_left] at hbytes
    obtain ⟨behind, rfl⟩ := hbytes
    have htake : (rest.take size).length = size := List.length_take_of_le hsize
    have hsize' : size ≤ (rest.take size ++ behind).length := by
      rw [List.length_append]
      omega
    rw [control_behind code hpos, control_behind code hpos, if_pos hsize, if_pos hsize',
      List.take_left' htake]
  case cut =>
    intro rest more hmore n hn
    obtain ⟨hsize, rfl⟩ := hmore_eq hmore
    have hshort : ¬ size ≤ (rest.take n).length := by
      rw [List.length_take]
      omega
    rw [control_behind code hpos, if_neg hshort]
    exact ⟨_, rfl⟩

lemma local_ocarina_color : Local 0 Ocarina.colorLexeme := by
  refine local_next ⟨1, rfl⟩ fun code => ?_
  simp only [Ocarina.colorLexeme]
  cases Ocarina.color? code.toNat <;> exact local_const (by simp [more?])

/-- The unit of a colour stands behind the other byte of the colour unit. -/
lemma local_japanese_color : Local 1 Japanese.colorLexeme := by
  refine local_next ⟨2, rfl⟩ fun high => local_next ⟨2, rfl⟩ fun code => ?_
  simp only [Japanese.colorLexeme]
  cases (if high = 0 then Ocarina.color? code.toNat else none) <;>
    exact local_const (by simp [more?])

lemma local_japanese_char (char? : ℕ → ℕ → Option Char) (lead trail : ℕ) :
    Local 1 fun _ => Japanese.charLexeme char? lead trail := by
  unfold Japanese.charLexeme
  split_ifs
  · cases char? lead trail <;> exact local_const (by simp [more?])
  · exact local_const (by simp [more?])

lemma local_japanese (char? : ℕ → ℕ → Option Char) (lead : UInt8) :
    Local 0 (Japanese.lexer char? lead) := by
  refine local_next ⟨0, rfl⟩ fun trail => ?_
  simp only [Japanese.lexer]
  generalize Japanese.unit lead trail = unit
  split_ifs
  · exact local_const (by simp [more?])
  · exact local_japanese_color
  · rcases Japanese.control? unit with _ | ⟨code, size⟩
    · cases Japanese.button? unit with
      | none => exact local_japanese_char char? lead.toNat trail.toNat
      | some button => exact local_const (by simp [more?])
    · exact local_control code size [trail]

lemma local_meaning (meaning : Meaning) : Local 0 fun rest => meaning.lexeme rest := by
  cases meaning with
  | stop => exact local_const (by simp [more?])
  | colorMark => exact local_ocarina_color
  | piece p => cases p <;> exact local_const (by simp [more?])
  | control code size => exact local_control code size []
  | nothing => exact local_const (by simp [more?])

/-- No encoding looks behind a lexeme. -/
theorem local_lexer (encoding : Encoding) (b : UInt8) : Local 0 (encoding.lexer b) := by
  have hsingle : ∀ s : SingleByte, Local 0 (s.encoding.lexer b) := by
    intro s
    rw [funext (s.lexer_eq b)]
    exact local_meaning (s.meaning b.toNat)
  cases encoding with
  | ootAscii => exact hsingle .ocarina
  | ootShiftJis => exact local_japanese DoubleByte.char? b
  | mmAscii => exact hsingle .majora
  | mmEuAscii => exact hsingle .majoraEurope

end Lexeme

/-- Bytes that are there are there up to any place and from it on. -/
lemma take_of_take_add {bytes bytes' : Bytes} {n size : ℕ}
    (h : bytes.take (n + size) <+: bytes') :
    bytes.take n <+: bytes' ∧ (bytes.drop n).take size <+: bytes'.drop n := by
  constructor
  · exact (List.take_prefix_take_left (Nat.le_add_right n size)).trans h
  · have hdrop := h.drop n
    rwa [List.drop_take, Nat.add_sub_cancel_left] at hdrop

namespace Lexer.Reads

variable {lexer : Lexer} {bytes : Bytes} {size : ℕ} {ending : Ending (List Piece)}

/-- A reading that does not lack bytes takes some. -/
lemma size_pos (h : Reads lexer bytes size ending) (hsettled : ending.Settled) : 0 < size := by
  cases h with
  | stop | bad | piece => omega
  | nothing | short => exact hsettled.elim

/-- A reading that does not lack bytes is the same wherever the bytes are that it takes. -/
theorem of_take (hlocal : ∀ b, Lexeme.Local 0 (lexer b)) (h : Reads lexer bytes size ending)
    (hsettled : ending.Settled) {bytes' : Bytes} (hbytes : bytes.take size <+: bytes') :
    Reads lexer bytes' size ending := by
  induction h generalizing bytes' with
  | nothing | short => exact hsettled.elim
  | @stop b rest more head =>
    rw [Nat.add_comm, List.take_succ_cons] at hbytes
    obtain ⟨rest', rfl, htail⟩ := List.cons_prefix_iff.mp hbytes
    exact .stop (((hlocal b).stable (congrArg Lexeme.more? head) htail).trans head)
  | @bad b rest more reason head =>
    have hmore : (lexer b rest).more? = some more := congrArg Lexeme.more? head
    rw [Nat.add_comm, List.take_succ_cons] at hbytes
    obtain ⟨rest', rfl, htail⟩ := List.cons_prefix_iff.mp hbytes
    have hhead : lexer b rest' = .bad more reason := ((hlocal b).stable hmore htail).trans head
    have htake : rest'.take more = rest.take more := by
      obtain ⟨behind, rfl⟩ := htail
      have := (hlocal b).within hmore
      exact List.take_left' (List.length_take_of_le (by omega))
    rw [← htake]
    exact .bad hhead
  | @piece b rest piece more size ending head tail ih =>
    have hmore : (lexer b rest).more? = some more := by rw [head, Lexeme.more?_lexeme]
    have hsize : 1 + more + size = more + size + 1 := by omega
    rw [hsize, List.take_succ_cons] at hbytes
    obtain ⟨rest', rfl, htail⟩ := List.cons_prefix_iff.mp hbytes
    obtain ⟨hfirst, hrest⟩ := take_of_take_add htail
    exact .piece (((hlocal b).stable hmore hfirst).trans head)
      (ih (Ending.settled_map_iff.mp hsettled) hrest)

/-- Where the lexeme at the front is cut, bytes are lacking at once. -/
lemma cut_front (hlocal : ∀ b, Lexeme.Local 0 (lexer b)) {b : UInt8} {rest : Bytes} {more n : ℕ}
    (hmore : (lexer b rest).more? = some more) (hn : n < 1 + more) :
    ∃ size', Reads lexer ((b :: rest).take n) size' .short := by
  cases n with
  | zero => exact ⟨0, .nothing⟩
  | succ n =>
    have hlt : 0 + n < more := by omega
    obtain ⟨taken, htaken⟩ := (hlocal b).cut hmore hlt
    exact ⟨taken, .short htaken⟩

/-- A reading of which the last bytes are cut off lacks bytes. -/
theorem cut (hlocal : ∀ b, Lexeme.Local 0 (lexer b)) (h : Reads lexer bytes size ending)
    (hsettled : ending.Settled) {n : ℕ} (hn : n < size) :
    ∃ size', Reads lexer (bytes.take n) size' .short := by
  induction h generalizing n with
  | nothing | short => exact hsettled.elim
  | stop head => exact cut_front hlocal (congrArg Lexeme.more? head) hn
  | bad head => exact cut_front hlocal (congrArg Lexeme.more? head) hn
  | @piece b rest piece more size ending head tail ih =>
    have hmore : (lexer b rest).more? = some more := by rw [head, Lexeme.more?_lexeme]
    by_cases hlt : n < 1 + more
    · exact cut_front hlocal hmore hlt
    obtain ⟨n, rfl⟩ := Nat.exists_eq_add_of_le' (show 1 ≤ n by omega)
    have hhead : lexer b (rest.take n) = piece.lexeme more :=
      ((hlocal b).stable hmore (List.take_prefix_take_left (by omega))).trans head
    obtain ⟨size', htail⟩ := ih (Ending.settled_map_iff.mp hsettled) (n := n - more) (by omega)
    rw [← List.drop_take] at htail
    exact ⟨_, .piece hhead htail⟩

end Lexer.Reads

namespace Encoding

lemma settings?_of_take {encoding : Encoding} {bytes bytes' : Bytes}
    {settings : Option BoxSettings} (h : encoding.settings? bytes = some settings)
    (hbytes : bytes.take encoding.headerSize <+: bytes') :
    encoding.settings? bytes' = some settings := by
  have hlength := isSome_settings?_iff.mp (Option.isSome_of_eq_some h)
  have htake : bytes'.take encoding.headerSize = bytes.take encoding.headerSize := by
    obtain ⟨behind, rfl⟩ := hbytes
    exact List.take_left' (List.length_take_of_le hlength)
  rw [← h]
  unfold settings? headerSize at *
  split_ifs at htake ⊢
  · rw [htake]
  · rfl

end Encoding

namespace Reads

variable {encoding : Encoding} {bytes : Bytes} {size : ℕ} {ending : Ending Message}

lemma size_pos (h : Reads encoding bytes size ending) (hsettled : ending.Settled) :
    0 < size := by
  cases h with
  | header => exact hsettled.elim
  | text _ htext =>
    have := htext.size_pos (Ending.settled_map_iff.mp hsettled)
    omega

theorem of_take (h : Reads encoding bytes size ending) (hsettled : ending.Settled)
    {bytes' : Bytes} (hbytes : bytes.take size <+: bytes') :
    Reads encoding bytes' size ending := by
  cases h with
  | header => exact hsettled.elim
  | @text settings size ending hsettings htext =>
    obtain ⟨hheader, hrest⟩ := take_of_take_add hbytes
    exact .text (Encoding.settings?_of_take hsettings hheader)
      (htext.of_take (Lexeme.local_lexer encoding) (Ending.settled_map_iff.mp hsettled) hrest)

theorem cut (h : Reads encoding bytes size ending) (hsettled : ending.Settled) {n : ℕ}
    (hn : n < size) : ∃ size', Reads encoding (bytes.take n) size' .short := by
  cases h with
  | header => exact hsettled.elim
  | @text settings size ending hsettings htext =>
    by_cases hlt : n < encoding.headerSize
    · have hnone : encoding.settings? (bytes.take n) = none := by
        rw [← Option.not_isSome_iff_eq_none, Encoding.isSome_settings?_iff, List.length_take]
        omega
      exact ⟨_, .header hnone⟩
    have hsettings' : encoding.settings? (bytes.take n) = some settings :=
      Encoding.settings?_of_take hsettings (List.take_prefix_take_left (by omega))
    obtain ⟨size', hshort⟩ := htext.cut (Lexeme.local_lexer encoding)
      (Ending.settled_map_iff.mp hsettled) (n := n - encoding.headerSize) (by omega)
    rw [← List.drop_take] at hshort
    exact ⟨_, .text hsettings' hshort⟩

end Reads

/-- The error of a message that stands behind `n` bytes more. -/
def Error.shift (n : ℕ) : Error → Error
  | unexpectedEnd position => unexpectedEnd (n + position)
  | e => e

variable {encoding : Encoding} {bytes : Bytes} {offset : ℕ}

/-- Bytes behind a message or behind bytes that mean nothing do not matter. -/
lemma read_append (behind : Bytes)
    (h : (∃ m, read encoding bytes offset = .ok m) ∨
      (∃ sequence reason, read encoding bytes offset = .error (.badSequence sequence reason))) :
    read encoding (bytes ++ behind) offset = read encoding bytes offset := by
  obtain ⟨size, ending, hreads⟩ := exists_reads encoding (bytes.drop offset)
  rw [read_of_reads hreads] at h ⊢
  have hsettled : ending.Settled := by
    cases ending with
    | done | bad => trivial
    | short => rcases h with ⟨_, h⟩ | ⟨_, _, h⟩ <;> cases h
  have hfirst := List.take_prefix size (bytes.drop offset)
  have hbytes : (bytes.drop offset).take size <+: (bytes ++ behind).drop offset :=
    hfirst.trans ((List.prefix_append bytes behind).drop offset)
  exact read_of_reads (hreads.of_take hsettled hbytes)

/-- A message that is read was taken off the bytes up to where the cursor is left. -/
lemma exists_reads_of_readAt {m : Message} {c : Cursor}
    (h : readAt encoding ⟨bytes, offset⟩ = (.ok m, c)) :
    ∃ size, Reads encoding (bytes.drop offset) size (.done m) ∧ c.pos = offset + size := by
  obtain ⟨size, ending, hreads⟩ := exists_reads encoding (bytes.drop offset)
  rw [readAt_of_reads (c := ⟨bytes, offset⟩) hreads] at h
  obtain ⟨hresult, rfl⟩ := Prod.mk.inj h
  cases ending with
  | done a =>
    cases hresult
    exact ⟨size, hreads, rfl⟩
  | bad | short => cases hresult

/-- A message is read once its last byte is there, and not before. -/
lemma read_take {m : Message} {c : Cursor} (h : readAt encoding ⟨bytes, offset⟩ = (.ok m, c))
    (n : ℕ) :
    (c.pos ≤ n → read encoding (bytes.take n) offset = .ok m) ∧
      (n < c.pos → ∃ stop, read encoding (bytes.take n) offset = .error (.unexpectedEnd stop)) := by
  obtain ⟨size, hreads, hpos⟩ := exists_reads_of_readAt h
  have hsettled : (Ending.done m).Settled := trivial
  rw [hpos]
  constructor
  · intro hle
    have hbytes : (bytes.drop offset).take size <+: (bytes.take n).drop offset := by
      rw [List.drop_take]
      exact List.take_prefix_take_left (by omega)
    exact read_of_reads (hreads.of_take hsettled hbytes)
  · intro hlt
    have hsize := hreads.size_pos hsettled
    obtain ⟨size', hshort⟩ := hreads.cut hsettled (n := n - offset) (by omega)
    rw [← List.drop_take] at hshort
    exact ⟨_, read_of_reads hshort⟩

/-- Bytes in front of a message only move it. -/
lemma read_behind (before : Bytes) :
    read encoding (before ++ bytes) (before.length + offset) =
      (read encoding bytes offset).mapError (Error.shift before.length) := by
  obtain ⟨size, ending, hreads⟩ := exists_reads encoding (bytes.drop offset)
  have hdrop : (before ++ bytes).drop (before.length + offset) = bytes.drop offset := by
    rw [← List.drop_drop, List.drop_left]
  have hmoved : Reads encoding ((before ++ bytes).drop (before.length + offset)) size ending := by
    rwa [hdrop]
  rw [read_of_reads hmoved, read_of_reads hreads, Nat.add_assoc]
  cases ending <;> rfl

/-- Bytes behind a message do not matter, a message is not read before its last byte is
there, and bytes in front of a message only move it. -/
theorem read_local (encoding : Encoding) (bytes : Bytes) (offset : ℕ) :
    (∀ behind, (∃ m, read encoding bytes offset = .ok m) ∨
        (∃ sequence reason, read encoding bytes offset = .error (.badSequence sequence reason)) →
      read encoding (bytes ++ behind) offset = read encoding bytes offset) ∧
    (∀ m c, readAt encoding ⟨bytes, offset⟩ = (.ok m, c) → ∀ n,
      (c.pos ≤ n → read encoding (bytes.take n) offset = .ok m) ∧
      (n < c.pos → ∃ stop, read encoding (bytes.take n) offset = .error (.unexpectedEnd stop))) ∧
    ∀ before, read encoding (before ++ bytes) (before.length + offset) =
      (read encoding bytes offset).mapError (Error.shift before.length) := by
  refine ⟨read_append, ?_, read_behind⟩
  intro m c hread n
  exact read_take hread n

/-- Without its last byte the message would end at the argument of its code. -/
theorem read_local_argument :
    let bytes := [0, 0x10, 0xFE, 0, 0x2A, 0, 0x14, 0xFF, 0xFF, 0xFF, 0xFF, 0x14, 0xBF, 0xBF]
    let m : Message :=
      ⟨some ⟨0, 0x10, 0xFE, some 0x2A, some 0x14, none⟩,
        [.control .shift (some 0xBF), .control .stop none]⟩
    readAt .mmAscii ⟨bytes, 0⟩ = (.ok m, ⟨bytes, 14⟩) ∧
      read .mmAscii (bytes ++ [0x14]) 0 = .ok m ∧
      (∃ stop, read .mmAscii (bytes.take 13) 0 = .error (.unexpectedEnd stop)) ∧
      read .mmAscii ([0xBF] ++ bytes) 1 = .ok m := by
  intro bytes m
  have hread : readAt .mmAscii ⟨bytes, 0⟩ = (.ok m, ⟨bytes, 14⟩) := by cbv
  have hok : read .mmAscii bytes 0 = .ok m := congrArg Prod.fst hread
  obtain ⟨hbehind, hcut, hmoved⟩ := read_local .mmAscii bytes 0
  refine ⟨hread, (hbehind [0x14] (.inl ⟨m, hok⟩)).trans hok, ?_, ?_⟩
  · exact (hcut m ⟨bytes, 14⟩ hread 13).2 (by decide)
  · exact (hmoved [0xBF]).trans (by rw [hok]; rfl)

end Cartridge.Message
