import V5gdb.FixedBuffers
import Mathlib.Data.BitVec

/-!
The report that a panic leaves on the screen.
Its text comes in pieces and is broken into lines in a single buffer of one line,
which is never cleared: behind the pending text lie bytes of the lines before. A full
line is broken at its last space and the rest moves to the front. No text is lost.
-/
namespace V5gdb

open FixedBuffers

namespace ErrorReport

def DISPLAY_WIDTH : BitVec 32 := 480

def DISPLAY_HEIGHT : BitVec 32 := 240

def BOX_MARGIN : BitVec 32 := 16

def BOX_PADDING : BitVec 32 := 16

def LINE_HEIGHT : BitVec 32 := 20

abbrev LINE_MAX_WIDTH : ℕ := 52

def COLOR_RED : BitVec 32 := 0x8b0000

def COLOR_WHITE : BitVec 32 := 0xffffff

/-- A line, and one extra byte for a null terminator. -/
abbrev Buffer := Vector (BitVec 8) (LINE_MAX_WIDTH + 1)

end ErrorReport

inductive Wrap
  | newline (pos : ℕ)
  | word (spacePosition : ℕ)
  | letter
  deriving DecidableEq, Repr

namespace Wrap

def point : Wrap → ℕ
  | newline pos => pos
  | word spacePosition => spacePosition
  | letter => ErrorReport.LINE_MAX_WIDTH - 1

def separator : Wrap → List (BitVec 8)
  | newline _ => [0x0a]
  | word _ => [0x20]
  | letter => []

end Wrap

/-- The arguments of `vexDisplayPrintf`. The wrap is not handed over. -/
structure Line where
  xpos : BitVec 32
  ypos : BitVec 32
  bOpaque : BitVec 32
  buf : ErrorReport.Buffer
  wrap : Wrap

inductive DisplayCall
  | doubleBufferDisable
  | foregroundColor (col : BitVec 32)
  | rectFill (x1 y1 x2 y2 : BitVec 32)
  | rectDraw (x1 y1 x2 y2 : BitVec 32)
  | fontNamedSet (name : String)
  | textSize (n d : BitVec 32)
  | printf (line : Line)

structure ErrorReport where
  yOffset : BitVec 32
  buf : ErrorReport.Buffer
  pos : ℕ

namespace ErrorReport

def begin : List DisplayCall × ErrorReport :=
  ([.doubleBufferDisable,
    .foregroundColor COLOR_RED,
    .rectFill BOX_MARGIN BOX_MARGIN (DISPLAY_WIDTH - BOX_MARGIN) (DISPLAY_HEIGHT - BOX_MARGIN),
    .foregroundColor COLOR_WHITE,
    .rectDraw BOX_MARGIN BOX_MARGIN (DISPLAY_WIDTH - BOX_MARGIN) (DISPLAY_HEIGHT - BOX_MARGIN),
    .fontNamedSet "monospace"],
    { buf := Vector.replicate _ 0, pos := 0, yOffset := BOX_MARGIN + BOX_PADDING })

def wrapPoint (buf : Buffer) (pos : ℕ) (character : Char) : Option (Buffer × Wrap) :=
  if character = '\n' then
    (store buf pos 0).map fun buf => (buf, .newline pos)
  else
    match rposition (· = 0x20) buf.toList with
    | some spacePosition =>
      (store buf spacePosition 0).map fun buf => (buf, .word spacePosition)
    | none => some (buf, .letter)

/-- The brain's font is taken to have ASCII only. -/
def asciiChar (character : Char) : Char := if character.toNat < 128 then character else '?'

/-- One character of `write_str`, and the line that it ends. None is a panic. The
offset of the lines wraps around, as in a release build. -/
def writeChar (r : ErrorReport) (character : Char) : Option (ErrorReport × Option Line) := do
  let character := asciiChar character
  let buf ← store r.buf r.pos (BitVec.ofNat 8 character.toNat)
  if character = '\n' ∨ r.pos = LINE_MAX_WIDTH - 1 then
    let (buf, wrap) ← wrapPoint buf r.pos character
    let line : Line := ⟨BOX_MARGIN + BOX_PADDING, r.yOffset, 0, buf, wrap⟩
    let yOffset := r.yOffset + LINE_HEIGHT
    if r.pos = LINE_MAX_WIDTH - 1 then
      -- the remaining characters are moved to the front of the next line
      let buf ← copyWithin buf (wrap.point + 1) 0
      if wrap.point ≤ r.pos then some (⟨yOffset, buf, r.pos - wrap.point⟩, some line) else none
    else
      some (⟨yOffset, buf, 0⟩, some line)
  else
    some ({ r with buf := buf, pos := r.pos + 1 }, none)

def writeChars : ErrorReport → List Char → Option (ErrorReport × List Line)
  | r, [] => some (r, [])
  | r, character :: rest => do
    let (r, line) ← r.writeChar character
    let (r, lines) ← writeChars r rest
    some (r, line.toList ++ lines)

def writeStr (r : ErrorReport) (s : String) : Option (ErrorReport × List DisplayCall) := do
  let (r, lines) ← r.writeChars s.toList
  some (r, .textSize 1 4 :: lines.map .printf)

def writeAll : ErrorReport → List String → Option (ErrorReport × List DisplayCall)
  | r, [] => some (r, [])
  | r, s :: rest => do
    let (r, calls) ← r.writeStr s
    let (r, more) ← writeAll r rest
    some (r, calls ++ more)

end ErrorReport

def printedLines (calls : List DisplayCall) : List Line :=
  calls.filterMap fun
    | .printf line => some line
    | _ => none

theorem printedLines_append (calls calls' : List DisplayCall) :
    printedLines (calls ++ calls') = printedLines calls ++ printedLines calls' :=
  List.filterMap_append

theorem printedLines_textSize (n d : BitVec 32) (calls : List DisplayCall) :
    printedLines (.textSize n d :: calls) = printedLines calls := rfl

theorem printedLines_map_printf (lines : List Line) :
    printedLines (lines.map .printf) = lines := by
  rw [printedLines, List.filterMap_map]
  exact List.filterMap_some

/-- What the screen is to show, one byte for each character. -/
def sanitize (text : List Char) : List (BitVec 8) :=
  text.map fun character => BitVec.ofNat 8 (ErrorReport.asciiChar character).toNat

namespace Line

def text? (l : Line) : Option (List (BitVec 8)) := cString 0 l.buf.toList

/-- The string ends in the buffer, and it fits on one line of the screen. -/
def Fits (l : Line) : Prop :=
  ∃ text, l.text? = some text ∧ text.length ≤ ErrorReport.LINE_MAX_WIDTH ∧ 0x0a ∉ text

def unwrap (l : Line) : List (BitVec 8) := l.text?.getD [] ++ l.wrap.separator

end Line

namespace ErrorReport

def Printable (b : BitVec 8) : Prop := b ≠ 0 ∧ b ≠ 0x0a

/-- The pending text lies at the front of the buffer, and the last byte is always zero. -/
structure Holds (r : ErrorReport) (text : List (BitVec 8)) : Prop where
  pending : text <+: r.buf.toList
  terminated : r.buf.toList.getLast? = some 0
  pos_eq : r.pos = text.length
  room : text.length ≤ LINE_MAX_WIDTH - 1
  printable : ∀ b ∈ text, Printable b

variable {r : ErrorReport} {text : List (BitVec 8)} {character : Char}

theorem length_of_toList_eq {buf : Buffer} {bytes : List (BitVec 8)} (h : buf.toList = bytes) :
    bytes.length = 53 := h ▸ buf.length_toList

theorem Holds.take_eq (h : r.Holds text) : r.buf.toList.take r.pos = text := by
  rw [h.pos_eq]
  exact (List.prefix_iff_eq_take.mp h.pending).symm

/-- The byte that is written next lies between the text and the terminator. -/
theorem Holds.cut (h : r.Holds text) :
    ∃ x stale, r.buf.toList = text ++ x :: (stale ++ [0]) := by
  obtain ⟨bytes, hbytes⟩ := List.getLast?_eq_some_iff.mp h.terminated
  have hlen := length_of_toList_eq hbytes
  rw [List.length_append, List.length_singleton] at hlen
  have hroom : text.length ≤ 51 := h.room
  have hpending := h.pending
  rw [hbytes] at hpending
  obtain ⟨rest, rfl⟩ : text <+: bytes :=
    List.prefix_of_prefix_length_le hpending (List.prefix_append _ _) (by omega)
  rw [List.length_append] at hlen
  cases rest with
  | nil =>
    rw [List.length_nil] at hlen
    omega
  | cons x stale => exact ⟨x, stale, by rw [hbytes, List.append_assoc, List.cons_append]⟩

theorem terminated_of_cut {buf : Buffer} {front stale : List (BitVec 8)} {x : BitVec 8}
    (h : buf.toList = front ++ x :: (stale ++ [0])) : buf.toList.getLast? = some 0 :=
  List.getLast?_eq_some_iff.mpr ⟨front ++ x :: stale, by rw [h, List.append_assoc]; rfl⟩

theorem asciiChar_lt (character : Char) : (asciiChar character).toNat < 128 := by
  rw [asciiChar]
  split
  · assumption
  · decide

/-- The bytes of two ASCII characters. -/
theorem byte_injective {c d : Char} (hc : c.toNat < 128) (hd : d.toNat < 128)
    (h : BitVec.ofNat 8 c.toNat = BitVec.ofNat 8 d.toNat) : c = d := by
  have htoNat := congrArg BitVec.toNat h
  rw [BitVec.toNat_ofNat, BitVec.toNat_ofNat, Nat.mod_eq_of_lt (by omega),
    Nat.mod_eq_of_lt (by omega)] at htoNat
  exact Char.toNat_inj.mp htoNat

theorem holds_begin : begin.2.Holds [] where
  pending := List.nil_prefix
  terminated := by decide
  pos_eq := rfl
  room := Nat.zero_le _
  printable := by simp

/-- The rest of the buffer, but for the terminator, becomes the pending text. -/
theorem exists_shift {buf : Buffer} {done next : List (BitVec 8)}
    (h : buf.toList = done ++ (next ++ [0])) (hdone : done ≠ [])
    (hnext : ∀ b ∈ next, Printable b) (yOffset : BitVec 32) :
    ∃ buf', copyWithin buf done.length 0 = some buf' ∧
      Holds ⟨yOffset, buf', next.length⟩ next := by
  obtain ⟨buf', hcopy, hbuf'⟩ := exists_copyWithin_front h
  have hlen := length_of_toList_eq h
  rw [List.length_append, List.length_append, List.length_singleton] at hlen
  have hpos : 0 < done.length := List.length_pos_iff.mpr hdone
  refine ⟨buf', hcopy, ?_⟩
  constructor
  case pending =>
    rw [hbuf', List.append_assoc]
    exact List.prefix_append _ _
  case terminated =>
    have hbehind : ((done ++ (next ++ [0])).drop (next ++ [0]).length).getLast? =
        some (0 : BitVec 8) := by
      rw [List.getLast?_drop, if_neg (by simp; omega), List.getLast?_append]
      simp
    rw [hbuf', List.getLast?_append, hbehind]
    rfl
  case pos_eq => rfl
  case room =>
    have hroom : next.length ≤ 51 := by omega
    exact hroom
  case printable => exact hnext

/-- A buffer that has been broken: the line ends at the terminator, and what comes
after the break is the rest. -/
structure Broken (buf : Buffer) (wrap : Wrap) (front next : List (BitVec 8)) : Prop where
  line : ∃ behind, buf.toList = front ++ 0 :: behind
  remaining : ∃ done, buf.toList = done ++ (next ++ [0]) ∧ done.length = wrap.point + 1
  printable : ∀ b ∈ front ++ next, Printable b

theorem exists_wrapPoint_newline {buf : Buffer} {x : BitVec 8}
    (h : buf.toList = text ++ [x, 0]) (htext : ∀ b ∈ text, Printable b) :
    ∃ buf', wrapPoint buf text.length '\n' = some (buf', .newline text.length) ∧
      Broken buf' (.newline text.length) text [] := by
  obtain ⟨buf', hstore, hbuf'⟩ := exists_store h 0
  refine ⟨buf', ?_, ⟨⟨_, hbuf'⟩, ⟨text ++ [0], ?_⟩, ?_⟩⟩
  · rw [wrapPoint, if_pos rfl, hstore]
    rfl
  · simp [hbuf', Wrap.point]
  · rwa [List.append_nil]

/-- The terminator is no space. -/
theorem no_space_append_terminator {bytes : List (BitVec 8)}
    (h : ∀ b ∈ bytes, decide (b = 0x20) = false) :
    ∀ b ∈ bytes ++ [0], decide (b = 0x20) = false :=
  List.forall_mem_append.mpr ⟨h, List.forall_mem_singleton.mpr (by decide)⟩

theorem exists_wrapPoint_word {buf : Buffer} {front next : List (BitVec 8)} {pos : ℕ}
    (h : buf.toList = front ++ 0x20 :: (next ++ [0])) (hch : character ≠ '\n')
    (hnext : ∀ b ∈ next, decide (b = 0x20) = false)
    (hprintable : ∀ b ∈ front ++ next, Printable b) :
    ∃ buf', wrapPoint buf pos character = some (buf', .word front.length) ∧
      Broken buf' (.word front.length) front next := by
  have hscan : rposition (· = (0x20 : BitVec 8)) buf.toList = some front.length := by
    rw [h]
    exact rposition_eq_some rfl (no_space_append_terminator hnext)
  obtain ⟨buf', hstore, hbuf'⟩ := exists_store h 0
  refine ⟨buf', ?_, ⟨⟨_, hbuf'⟩, ⟨front ++ [0], ?_, ?_⟩, hprintable⟩⟩
  · rw [wrapPoint, if_neg hch, hscan]
    exact congrArg (Option.map fun buf => (buf, Wrap.word front.length)) hstore
  · rw [hbuf', List.append_assoc]
    rfl
  · simp [Wrap.point]

theorem wrapPoint_letter {buf : Buffer} {full : List (BitVec 8)} {pos : ℕ}
    (h : buf.toList = full ++ [0]) (hch : character ≠ '\n')
    (hnone : ∀ b ∈ full, decide (b = 0x20) = false) (hprintable : ∀ b ∈ full, Printable b) :
    wrapPoint buf pos character = some (buf, .letter) ∧ Broken buf .letter full [] := by
  have hscan : rposition (· = (0x20 : BitVec 8)) buf.toList = none := by
    rw [h]
    exact rposition_eq_none (no_space_append_terminator hnone)
  have hlen := length_of_toList_eq h
  rw [List.length_append, List.length_singleton] at hlen
  refine ⟨?_, ⟨_, h⟩, ⟨full, h, Nat.succ.inj hlen⟩, ?_⟩
  · rw [wrapPoint, if_neg hch, hscan]
  · rwa [List.append_nil]

/-- A full line is broken without loss. -/
theorem exists_wrapPoint {buf : Buffer} {b : BitVec 8} (h : buf.toList = text ++ [b, 0])
    (htext : ∀ x ∈ text, Printable x) (hb : b ≠ 0) (hnewline : character = '\n' ↔ b = 0x0a) :
    ∃ buf' wrap front next, wrapPoint buf text.length character = some (buf', wrap) ∧
      Broken buf' wrap front next ∧ front ++ wrap.separator ++ next = text ++ [b] := by
  by_cases hch : character = '\n'
  · subst hch
    obtain ⟨buf', hwrap, hbroken⟩ := exists_wrapPoint_newline h htext
    refine ⟨buf', _, text, [], hwrap, hbroken, ?_⟩
    rw [hnewline.mp rfl, List.append_nil]
    rfl
  · have hcut : buf.toList = text ++ [b] ++ [0] := by
      rw [h, List.append_assoc]
      rfl
    have hbyte : Printable b := ⟨hb, fun heq => hch (hnewline.mpr heq)⟩
    have hall : ∀ x ∈ text ++ [b], Printable x :=
      List.forall_mem_append.mpr ⟨htext, List.forall_mem_singleton.mpr hbyte⟩
    rcases exists_last_or_forall (· = (0x20 : BitVec 8)) (text ++ [b]) with
      hnone | ⟨front, x, next, hfull, hx, hnext⟩
    · obtain ⟨hwrap, hbroken⟩ := wrapPoint_letter hcut hch hnone hall
      refine ⟨buf, .letter, text ++ [b], [], hwrap, hbroken, ?_⟩
      rw [Wrap.separator, List.append_nil, List.append_nil]
    · obtain rfl : x = 0x20 := of_decide_eq_true hx
      rw [hfull] at hcut hall
      rw [List.append_assoc, List.cons_append] at hcut
      obtain ⟨hfront, hrest⟩ := List.forall_mem_append.mp hall
      have hprintable : ∀ y ∈ front ++ next, Printable y :=
        List.forall_mem_append.mpr ⟨hfront, (List.forall_mem_cons.mp hrest).2⟩
      obtain ⟨buf', hwrap, hbroken⟩ := exists_wrapPoint_word hcut hch hnext hprintable
      refine ⟨buf', _, front, next, hwrap, hbroken, ?_⟩
      rw [hfull, Wrap.separator, List.append_assoc]
      rfl

/-- A line that is printed up to the terminator. -/
theorem text?_of_cut {line : Line} {front behind : List (BitVec 8)}
    (h : line.buf.toList = front ++ 0 :: behind) (hfront : ∀ b ∈ front, Printable b) :
    line.text? = some front ∧ line.Fits := by
  have htext : line.text? = some front := by
    rw [Line.text?, h]
    exact cString_append (fun hmem => (hfront 0 hmem).1 rfl) behind
  have hlen := length_of_toList_eq h
  rw [List.length_append, List.length_cons] at hlen
  have hfits : front.length ≤ 52 := by omega
  exact ⟨htext, front, htext, hfits, fun hmem => (hfront _ hmem).2 rfl⟩

theorem sanitized_newline_iff (character : Char) :
    asciiChar character = '\n' ↔ BitVec.ofNat 8 (asciiChar character).toNat = 0x0a := by
  constructor
  · intro h
    rw [h]
    rfl
  · exact fun h => byte_injective (asciiChar_lt character) (by decide) h

theorem sanitized_ne_zero (hnul : character ≠ '\x00') :
    BitVec.ofNat 8 (asciiChar character).toNat ≠ 0 := by
  intro h
  have hzero : asciiChar character = '\x00' :=
    byte_injective (asciiChar_lt character) (by decide) h
  rw [asciiChar] at hzero
  split at hzero
  · exact hnul hzero
  · exact absurd hzero (by decide)

/-- At the last column. -/
theorem exists_writeChar_full (h : r.Holds text) (hnul : character ≠ '\x00')
    (hfull : r.pos = LINE_MAX_WIDTH - 1) :
    ∃ r' line next, r.writeChar character = some (r', some line) ∧ r'.Holds next ∧
      line.Fits ∧ line.unwrap ++ next = text ++ sanitize [character] := by
  obtain ⟨x, stale, hcut⟩ := h.cut
  have hlen := length_of_toList_eq hcut
  simp only [List.length_append, List.length_cons, List.length_nil] at hlen
  have hfull' : r.pos = 51 := hfull
  have hpos : text.length = 51 := h.pos_eq ▸ hfull
  obtain rfl : stale = [] := List.length_eq_zero_iff.mp (by omega)
  obtain ⟨buf, hstore, hbuf⟩ := exists_store hcut (BitVec.ofNat 8 (asciiChar character).toNat)
  obtain ⟨buf', wrap, front, next, hwrap, hbroken, htext⟩ := exists_wrapPoint hbuf h.printable
    (sanitized_ne_zero hnul) (sanitized_newline_iff character)
  obtain ⟨behind, hfront⟩ := hbroken.line
  obtain ⟨done, hdone, hpoint⟩ := hbroken.remaining
  have hdonelen := length_of_toList_eq hdone
  simp only [List.length_append, List.length_cons, List.length_nil] at hdonelen
  have hnext : r.pos - wrap.point = next.length := by omega
  have hne : done ≠ [] := List.ne_nil_of_length_pos (by omega)
  obtain ⟨buf'', hcopy, hholds⟩ := exists_shift hdone hne
    (fun b hb => hbroken.printable b (List.mem_append_right _ hb)) (r.yOffset + LINE_HEIGHT)
  have hshown := fun b hb => hbroken.printable b (List.mem_append_left next hb)
  rw [← h.pos_eq] at hstore hwrap
  rw [hpoint] at hcopy
  rw [← hnext] at hholds
  obtain ⟨htext?, hfits⟩ := @text?_of_cut
    ⟨BOX_MARGIN + BOX_PADDING, r.yOffset, 0, buf', wrap⟩ front behind hfront hshown
  refine ⟨_, _, next, ?_, hholds, hfits, ?_⟩
  · have hroom : wrap.point ≤ r.pos := by omega
    simp only [writeChar, hstore, Option.bind_eq_bind, Option.bind_some]
    rw [if_pos (Or.inr hfull), hwrap]
    simp only [Option.bind_some, if_pos hfull, hcopy, if_pos hroom]
  · rw [Line.unwrap, htext?]
    exact htext

theorem exists_writeChar_newline (h : r.Holds text) (hpos : r.pos ≠ LINE_MAX_WIDTH - 1)
    (hnl : asciiChar character = '\n') :
    ∃ r' line, r.writeChar character = some (r', some line) ∧ r'.Holds [] ∧
      line.Fits ∧ line.unwrap = text ++ sanitize [character] := by
  obtain ⟨x, stale, hcut⟩ := h.cut
  obtain ⟨buf, hstore, hbuf⟩ := exists_store hcut (BitVec.ofNat 8 (asciiChar character).toNat)
  obtain ⟨buf', hend, hbuf'⟩ := exists_store hbuf 0
  rw [← h.pos_eq] at hstore hend
  obtain ⟨htext?, hfits⟩ := @text?_of_cut
    ⟨BOX_MARGIN + BOX_PADDING, r.yOffset, 0, buf', .newline r.pos⟩ text _ hbuf' h.printable
  have hwrap : wrapPoint buf r.pos (asciiChar character) = some (buf', .newline r.pos) := by
    rw [wrapPoint, if_pos hnl, hend]
    rfl
  refine ⟨⟨r.yOffset + LINE_HEIGHT, buf', 0⟩, _, ?_, ?_, hfits, ?_⟩
  · simp only [writeChar, hstore, Option.bind_eq_bind, Option.bind_some]
    rw [if_pos (Or.inl hnl), hwrap]
    simp only [Option.bind_some, if_neg hpos]
  · constructor
    case pending => exact List.nil_prefix
    case terminated => exact terminated_of_cut hbuf'
    case pos_eq => rfl
    case room => exact Nat.zero_le _
    case printable => simp
  · rw [Line.unwrap, htext?, sanitize, List.map_singleton, hnl]
    rfl

theorem exists_writeChar_pending (h : r.Holds text) (hnul : character ≠ '\x00')
    (hpos : r.pos ≠ LINE_MAX_WIDTH - 1) (hnl : asciiChar character ≠ '\n') :
    ∃ r', r.writeChar character = some (r', none) ∧
      r'.Holds (text ++ sanitize [character]) := by
  obtain ⟨x, stale, hcut⟩ := h.cut
  obtain ⟨buf, hstore, hbuf⟩ := exists_store hcut (BitVec.ofNat 8 (asciiChar character).toNat)
  rw [← h.pos_eq] at hstore
  refine ⟨⟨r.yOffset, buf, r.pos + 1⟩, ?_, ?_⟩
  · simp only [writeChar, hstore, Option.bind_eq_bind, Option.bind_some]
    rw [if_neg (fun hbreak => hbreak.elim hnl hpos)]
  · constructor
    case pending =>
      rw [hbuf]
      exact ⟨stale ++ [0], by simp [sanitize]⟩
    case terminated => exact terminated_of_cut hbuf
    case pos_eq => rw [h.pos_eq, List.length_append]; rfl
    case room =>
      rw [h.pos_eq] at hpos
      rw [List.length_append]
      exact Nat.lt_of_le_of_ne h.room hpos
    case printable =>
      have hbyte : Printable (BitVec.ofNat 8 (asciiChar character).toNat) :=
        ⟨sanitized_ne_zero hnul, fun heq => hnl ((sanitized_newline_iff _).mpr heq)⟩
      exact List.forall_mem_append.mpr ⟨h.printable, List.forall_mem_singleton.mpr hbyte⟩

/-- One character: no check fails, and the text that is shown or pending grows by it. -/
theorem exists_writeChar (h : r.Holds text) (hnul : character ≠ '\x00') :
    ∃ r' line next, r.writeChar character = some (r', line) ∧ r'.Holds next ∧
      (∀ l ∈ line, l.Fits) ∧
      line.toList.flatMap Line.unwrap ++ next = text ++ sanitize [character] := by
  by_cases hfull : r.pos = LINE_MAX_WIDTH - 1
  · obtain ⟨r', line, next, hwrite, hholds, hfits, htext⟩ := exists_writeChar_full h hnul hfull
    exact ⟨r', some line, next, hwrite, hholds, by simpa using hfits, by simpa using htext⟩
  · by_cases hnl : asciiChar character = '\n'
    · obtain ⟨r', line, hwrite, hholds, hfits, htext⟩ := exists_writeChar_newline h hfull hnl
      exact ⟨r', some line, [], hwrite, hholds, by simpa using hfits, by simpa using htext⟩
    · obtain ⟨r', hwrite, hholds⟩ := exists_writeChar_pending h hnul hfull hnl
      exact ⟨r', none, _, hwrite, hholds, by simp, rfl⟩

/-! Whole strings. -/

theorem exists_writeChars {chars : List Char} (h : r.Holds text) (hnul : '\x00' ∉ chars) :
    ∃ r' lines next, r.writeChars chars = some (r', lines) ∧ r'.Holds next ∧
      (∀ l ∈ lines, l.Fits) ∧ lines.flatMap Line.unwrap ++ next = text ++ sanitize chars := by
  induction chars generalizing r text with
  | nil => exact ⟨r, [], text, rfl, h, by simp, by simp [sanitize]⟩
  | cons character rest ih =>
    obtain ⟨r₁, line, text₁, hwrite, hholds, hfits, htext⟩ :=
      exists_writeChar h fun heq => hnul (heq ▸ List.mem_cons_self)
    obtain ⟨r₂, lines, text₂, hrest, hholds', hfits', htext'⟩ :=
      ih hholds fun hmem => hnul (List.mem_cons_of_mem _ hmem)
    refine ⟨r₂, line.toList ++ lines, text₂, ?_, hholds', ?_, ?_⟩
    · simp only [writeChars, hwrite, hrest, Option.bind_eq_bind, Option.bind_some]
    · refine List.forall_mem_append.mpr ⟨?_, hfits'⟩
      exact fun l hl => hfits l (Option.mem_toList.mp hl)
    · calc (line.toList ++ lines).flatMap Line.unwrap ++ text₂
          = line.toList.flatMap Line.unwrap ++ (lines.flatMap Line.unwrap ++ text₂) := by
            rw [List.flatMap_append, List.append_assoc]
        _ = line.toList.flatMap Line.unwrap ++ (text₁ ++ sanitize rest) := by rw [htext']
        _ = text ++ sanitize [character] ++ sanitize rest := by
            rw [← List.append_assoc, htext]
        _ = text ++ sanitize (character :: rest) := by
            rw [List.append_assoc, sanitize, sanitize, ← List.map_append]
            rfl

theorem writeChars_append (r : ErrorReport) (front back : List Char) :
    r.writeChars (front ++ back) = (r.writeChars front).bind fun out =>
      (out.1.writeChars back).map fun more => (more.1, out.2 ++ more.2) := by
  induction front generalizing r with
  | nil => simp [writeChars]
  | cons character rest ih =>
    rw [List.cons_append, writeChars, writeChars]
    cases hwrite : r.writeChar character with
    | none => rfl
    | some out =>
      obtain ⟨r₁, line⟩ := out
      simp only [Option.bind_eq_bind, Option.bind_some, ih]
      cases hrest : r₁.writeChars rest with
      | none => rfl
      | some out =>
        cases hback : out.1.writeChars back with
        | none => simp [hback]
        | some more => simp [hback]

/-- Apart from the calls in between, pieces are written as the text they make up. -/
theorem writeAll_eq (r : ErrorReport) (strs : List String) :
    (r.writeAll strs).map (fun out => (out.1, printedLines out.2)) =
      r.writeChars (strs.flatMap String.toList) := by
  induction strs generalizing r with
  | nil => rfl
  | cons s rest ih =>
    rw [List.flatMap_cons, writeChars_append, writeAll, writeStr]
    cases hs : r.writeChars s.toList with
    | none => rfl
    | some out =>
      obtain ⟨r₁, lines⟩ := out
      simp only [Option.bind_eq_bind, Option.bind_some, ← ih]
      cases hrest : r₁.writeAll rest with
      | none => rfl
      | some out =>
        have hlines : printedLines (.textSize 1 4 :: lines.map .printf ++ out.2) =
            lines ++ printedLines out.2 := by
          rw [printedLines_append, printedLines_textSize, printedLines_map_printf]
        simp only [Option.bind_some, Option.map_some, hlines]

/-- Whatever the pieces are, the text comes out. -/
theorem word_wrap_loses_no_text (strs : List String) (hnul : ∀ s ∈ strs, '\x00' ∉ s.toList) :
    ∃ r calls, begin.2.writeAll strs = some (r, calls) ∧
      r.pos ≤ LINE_MAX_WIDTH - 1 ∧
      (∀ l ∈ printedLines calls, l.Fits) ∧
      (printedLines calls).flatMap Line.unwrap ++ r.buf.toList.take r.pos =
        sanitize (strs.flatMap String.toList) ∧
      ∀ strs' : List String, strs'.flatMap String.toList = strs.flatMap String.toList →
        ∃ calls', begin.2.writeAll strs' = some (r, calls') ∧
          printedLines calls' = printedLines calls := by
  have hchars : '\x00' ∉ strs.flatMap String.toList := by
    rw [List.mem_flatMap]
    rintro ⟨s, hs, hmem⟩
    exact hnul s hs hmem
  obtain ⟨r, lines, next, hwrite, hholds, hfits, htext⟩ := exists_writeChars holds_begin hchars
  have hpieces : ∀ strs' : List String, strs'.flatMap String.toList = strs.flatMap String.toList →
      ∃ calls, begin.2.writeAll strs' = some (r, calls) ∧ printedLines calls = lines := by
    intro strs' hsame
    have hall := writeAll_eq begin.2 strs'
    rw [hsame, hwrite, Option.map_eq_some_iff] at hall
    obtain ⟨⟨r', calls⟩, hcalls, hout⟩ := hall
    obtain ⟨rfl, hlines⟩ := Prod.mk.inj hout
    exact ⟨calls, hcalls, hlines⟩
  obtain ⟨calls, hcalls, rfl⟩ := hpieces strs rfl
  refine ⟨r, calls, hcalls, hholds.pos_eq ▸ hholds.room, hfits, ?_, hpieces⟩
  rw [hholds.take_eq]
  exact htext

/-- A character that is not ASCII, and a newline in a piece of its own. -/
theorem word_wrap_keeps_report : ∃ r calls,
    begin.2.writeAll ["v5gdb panicked: \u00e9", "\n"] = some (r, calls) ∧
      (printedLines calls).flatMap Line.unwrap ++ r.buf.toList.take r.pos =
        sanitize (["v5gdb panicked: \u00e9", "\n"].flatMap String.toList) := by
  obtain ⟨r, calls, hwrite, -, -, htext, -⟩ :=
    word_wrap_loses_no_text ["v5gdb panicked: \u00e9", "\n"] (by decide)
  exact ⟨r, calls, hwrite, htext⟩

end ErrorReport
end V5gdb
