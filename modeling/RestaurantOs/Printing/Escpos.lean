import RestaurantOs.Data.Words
import RestaurantOs.Imports.Texts

/-!
# Printed lines

A document is printed line by line. A text is wrapped between its words, and a
row has its right part at the end of the line, or of a line of its own if the
two parts do not fit on one. Characters are UTF-16 units.
-/

namespace RestaurantOs.Escpos

open MenuImport (isSpace)
open Words (words slices pieces)

abbrev Units := List UInt16

def ESC : UInt8 := 0x1b

def GS : UInt8 := 0x1d

def LF : UInt8 := 0x0a

/-- `\s`, which no surrogate is. -/
def isBlank (unit : UInt16) : Bool := isSpace (Char.ofNat unit.toNat)

def space : UInt16 := 0x20

inductive Align
  | left | center | right
  deriving DecidableEq

inductive PrintLine
  | text (text : Units) (bold : Bool) (align : Option Align)
  | row (left right : Units) (bold : Bool)
  | rule
  | spacer
  deriving DecidableEq

structure PrintDocument where
  lines : List PrintLine

inductive PaperWidth
  | mm58 | mm80
  deriving DecidableEq

def encodeUnit (code : UInt16) : UInt8 := if 0x20 ≤ code ∧ code ≤ 0x7e then code.toUInt8 else 0x3f

def encodeAscii (text : Units) : List UInt8 := text.map encodeUnit

/-- What the loop over the words has pushed, and the line it is filling. -/
structure Wrapping where
  lines : List Units
  current : Units

def Wrapping.add (width : Nat) (wrapping : Wrapping) (word : Units) : Wrapping :=
  if width < word.length then
    { lines := wrapping.lines ++ (if wrapping.current = [] then [] else [wrapping.current]) ++ slices width word, current := [] }
  else
    let candidate := if wrapping.current = [] then word else wrapping.current ++ space :: word
    if width < candidate.length then { lines := wrapping.lines ++ [wrapping.current], current := word }
    else { wrapping with current := candidate }

def Wrapping.close (wrapping : Wrapping) : List Units :=
  let lines := if wrapping.current = [] then wrapping.lines else wrapping.lines ++ [wrapping.current]
  if lines = [] then [[]] else lines

def wrapText (text : Units) (width : Nat) : List Units :=
  if text.length = 0 then [[]] else ((words isBlank text).foldl (Wrapping.add width) { lines := [], current := [] }).close

def padStart (width : Nat) (t : Units) : Units := List.replicate (width - t.length) space ++ t

def padRow (left right : Units) (width : Nat) : List Units :=
  if left.length + right.length + 1 ≤ width then [left ++ List.replicate (width - left.length - right.length) space ++ right]
  else wrapText left width ++ [padStart width right]

def charsPerLine : PaperWidth → Nat
  | .mm58 => 32
  | .mm80 => 48

def pushLine (chars : List UInt8) : List UInt8 := chars ++ [LF]

def boldOn (bold : Bool) : List UInt8 := if bold then [ESC, 0x45, 0x01] else []

def boldOff (bold : Bool) : List UInt8 := if bold then [ESC, 0x45, 0x00] else []

def alignByte : Option Align → UInt8
  | some .center => 0x01
  | some .right => 0x02
  | _ => 0x00

def lineBytes (width : Nat) : PrintLine → List UInt8
  | .spacer => [LF]
  | .rule => [ESC, 0x61, 0x00] ++ pushLine (encodeAscii (List.replicate width 0x2d))
  | .row left right bold =>
    [ESC, 0x61, 0x00] ++ boldOn bold ++ (padRow left right width).flatMap (fun wrapped => pushLine (encodeAscii wrapped)) ++ boldOff bold
  | .text text bold align =>
    [ESC, 0x61, alignByte align] ++ boldOn bold ++ (wrapText text width).flatMap (fun wrapped => pushLine (encodeAscii wrapped)) ++ boldOff bold

def buildEscposBytes (doc : PrintDocument) (paperWidthMm : PaperWidth) : List UInt8 :=
  [ESC, 0x40] ++ doc.lines.flatMap (lineBytes (charsPerLine paperWidthMm)) ++ [LF, LF, LF] ++ [GS, 0x56, 0x00]

/-! ## What is printed -/

def printedLines (width : Nat) : PrintLine → List Units
  | .spacer => [[]]
  | .rule => [List.replicate width 0x2d]
  | .row left right _ => padRow left right width
  | .text text _ _ => wrapText text width

structure Printed (width : Nat) (parts lines : List Units) : Prop where
  fits : ∀ line ∈ lines, line.length ≤ width
  complete : lines.flatten.filter (!isBlank ·) = parts.flatten.filter (!isBlank ·)
  unbroken : lines.flatMap (words isBlank) = (parts.flatMap (words isBlank)).flatMap (pieces width)

def EndsAtEdge (width : Nat) (right : Units) (lines : List Units) : Prop :=
  ∃ line, lines.getLast? = some line ∧ right <:+ line ∧ line.length = width

def PrintsWell (width : Nat) (line : PrintLine) : Prop :=
  match line with
  | .text text _ _ => Printed width [text] (printedLines width line)
  | .row left right _ => Printed width [left, right] (printedLines width line) ∧ EndsAtEdge width right (printedLines width line)
  | .rule | .spacer => ∀ printed ∈ printedLines width line, printed.length ≤ width

def RightFits (width : Nat) : PrintLine → Prop
  | .row _ right _ => right.length ≤ width
  | _ => True

structure Emits (width : Nat) (line : PrintLine) (bytes : List UInt8) : Prop where
  split : ∃ before after, LF ∉ before ∧ LF ∉ after ∧
    bytes = before ++ (printedLines width line).flatMap (fun printed => pushLine (encodeAscii printed)) ++ after
  oneLineEach : ∀ printed ∈ printedLines width line, LF ∉ encodeAscii printed ∧ (encodeAscii printed).length = printed.length

theorem encodeUnit_ne_lf {unit : UInt16} : encodeUnit unit ≠ LF := by
  unfold encodeUnit
  split
  · rename_i hPrintable
    intro hLf
    have hLow : 0x20 ≤ unit.toNat := hPrintable.1
    have hHigh : unit.toNat ≤ 0x7e := hPrintable.2
    have hNat := congrArg UInt8.toNat hLf
    rw [UInt16.toNat_toUInt8] at hNat
    have hTen : LF.toNat = 10 := rfl
    omega
  · decide

section Bytes

variable {width : Nat}

theorem boldOn_lf {bold : Bool} : LF ∉ boldOn bold ∧ LF ∉ boldOff bold := by
  cases bold with
  | true => decide
  | false => decide

theorem emits_lineBytes (line : PrintLine) : Emits width line (lineBytes width line) := by
  have hAlign : ∀ align, LF ∉ [ESC, 0x61, alignByte align] := by
    intro align
    cases align with
    | none => decide
    | some align =>
      cases align with
      | left => decide
      | center => decide
      | right => decide
  refine ⟨?_, fun printed _ => ⟨?_, List.length_map _⟩⟩
  swap
  · intro hMem
    obtain ⟨code, -, hCode⟩ := List.mem_map.mp hMem
    exact encodeUnit_ne_lf hCode
  cases line with
  | spacer => exact ⟨[], [], List.not_mem_nil, List.not_mem_nil, rfl⟩
  | rule =>
    refine ⟨[ESC, 0x61, 0x00], [], hAlign none, List.not_mem_nil, ?_⟩
    rw [List.append_nil, lineBytes, printedLines, List.flatMap_singleton]
  | row left right bold =>
    refine ⟨[ESC, 0x61, 0x00] ++ boldOn bold, boldOff bold, ?_, boldOn_lf.2, rfl⟩
    rw [List.mem_append, not_or]
    exact ⟨hAlign none, boldOn_lf.1⟩
  | text text bold align =>
    refine ⟨[ESC, 0x61, alignByte align] ++ boldOn bold, boldOff bold, ?_, boldOn_lf.2, rfl⟩
    rw [List.mem_append, not_or]
    exact ⟨hAlign align, boldOn_lf.1⟩

end Bytes

/-! ## Wrapping -/

/-- What the loop keeps, `soFar` being the pieces of the words that are wrapped. -/
structure Wrapping.Kept (width : Nat) (soFar : List Units) (wrapping : Wrapping) : Prop where
  fits : ∀ line ∈ wrapping.lines, line.length ≤ width
  current_le : wrapping.current.length ≤ width
  words_eq : wrapping.lines.flatMap (words isBlank) ++ words isBlank wrapping.current = soFar

section Wrap

variable {width : Nat} {soFar : List Units} {wrapping : Wrapping} {word text left right : Units}

theorem isBlank_space : isBlank space = true := by decide

theorem Wrapping.Kept.add (h : wrapping.Kept width soFar) (hWidth : 0 < width) (hNe : word ≠ []) (hWord : ∀ c ∈ word, isBlank c = false) :
    (wrapping.add width word).Kept width (soFar ++ pieces width word) := by
  obtain ⟨hFits, hCurrent, hWords⟩ := h
  have hSelf := Words.words_self hNe hWord
  have hPieces := Words.words_pieces hWidth hNe hWord
  unfold Wrapping.add
  split
  · rename_i hLong
    have hSlices : pieces width word = slices width word := if_pos hLong
    constructor
    · intro line hMem
      rcases List.mem_append.mp hMem with hMem | hMem
      · rcases List.mem_append.mp hMem with hMem | hMem
        · exact hFits line hMem
        · split at hMem
          · cases hMem
          · rw [List.mem_singleton.mp hMem]
            exact hCurrent
      · exact Words.length_le_of_mem_slices hMem
    · exact Nat.zero_le width
    · have hOld : (if wrapping.current = [] then [] else [wrapping.current]).flatMap (words isBlank) = words isBlank wrapping.current := by
        split
        · rename_i hNil
          rw [hNil]
          rfl
        · exact List.flatMap_singleton _ _
      rw [List.flatMap_append, List.flatMap_append, hOld, hWords, ← hSlices, hPieces, Words.words_nil, List.append_nil]
  · rename_i hShort
    rw [Words.pieces_of_le (by omega)]
    dsimp only
    have hCandidate : words isBlank (if wrapping.current = [] then word else wrapping.current ++ space :: word) =
        words isBlank wrapping.current ++ [word] := by
      split
      · rename_i hNil
        rw [hNil, hSelf]
        rfl
      · rw [Words.words_append_cons isBlank_space, hSelf]
    generalize (if wrapping.current = [] then word else wrapping.current ++ space :: word) = candidate at hCandidate ⊢
    split
    · constructor
      · intro line hMem
        rcases List.mem_append.mp hMem with hMem | hMem
        · exact hFits line hMem
        · rw [List.mem_singleton.mp hMem]
          exact hCurrent
      · exact Nat.le_of_not_lt hShort
      · rw [List.flatMap_append, List.flatMap_singleton, hWords, hSelf]
    · rename_i hLe
      constructor
      · exact hFits
      · exact Nat.le_of_not_lt hLe
      · rw [hCandidate, ← List.append_assoc, hWords]

theorem Wrapping.Kept.foldl {ws : List Units} (h : wrapping.Kept width soFar) (hWidth : 0 < width)
    (hWords : ∀ word ∈ ws, word ≠ [] ∧ ∀ c ∈ word, isBlank c = false) :
    (ws.foldl (Wrapping.add width) wrapping).Kept width (soFar ++ ws.flatMap (pieces width)) := by
  induction ws generalizing wrapping soFar with
  | nil =>
    rw [List.flatMap_nil, List.append_nil]
    exact h
  | cons word ws ih =>
    rw [List.forall_mem_cons] at hWords
    rw [List.foldl_cons, List.flatMap_cons, ← List.append_assoc]
    exact ih (h.add hWidth hWords.1.1 hWords.1.2) hWords.2

theorem Wrapping.Kept.close (h : wrapping.Kept width soFar) :
    (∀ line ∈ wrapping.close, line.length ≤ width) ∧ wrapping.close.flatMap (words isBlank) = soFar := by
  obtain ⟨hFits, hCurrent, hWords⟩ := h
  have hLines : (∀ line ∈ (if wrapping.current = [] then wrapping.lines else wrapping.lines ++ [wrapping.current]), line.length ≤ width) ∧
      (if wrapping.current = [] then wrapping.lines else wrapping.lines ++ [wrapping.current]).flatMap (words isBlank) = soFar := by
    split
    · rename_i hNil
      rw [hNil, Words.words_nil, List.append_nil] at hWords
      exact ⟨hFits, hWords⟩
    · refine ⟨?_, by rw [List.flatMap_append, List.flatMap_singleton, hWords]⟩
      intro line hMem
      rcases List.mem_append.mp hMem with hMem | hMem
      · exact hFits line hMem
      · rw [List.mem_singleton.mp hMem]
        exact hCurrent
  unfold Wrapping.close
  generalize (if wrapping.current = [] then wrapping.lines else wrapping.lines ++ [wrapping.current]) = lines at hLines ⊢
  dsimp only
  split
  · rename_i hNone
    rw [hNone] at hLines
    refine ⟨?_, hLines.2⟩
    intro line hMem
    rw [List.mem_singleton.mp hMem]
    exact Nat.zero_le width
  · exact hLines

theorem wrapText_spec (hWidth : 0 < width) : (∀ line ∈ wrapText text width, line.length ≤ width) ∧
    (wrapText text width).flatMap (words isBlank) = (words isBlank text).flatMap (pieces width) := by
  unfold wrapText
  split
  · rename_i hEmpty
    rw [List.length_eq_zero_iff.mp hEmpty]
    refine ⟨?_, rfl⟩
    intro line hMem
    rw [List.mem_singleton.mp hMem]
    exact Nat.zero_le width
  · have hStart : Wrapping.Kept width [] { lines := [], current := [] } :=
      ⟨fun line hMem => absurd hMem List.not_mem_nil, Nat.zero_le width, rfl⟩
    exact (hStart.foldl hWidth fun word hMem => ⟨(Words.mem_words hMem).1, (Words.mem_words hMem).2.1⟩).close

theorem printed_of_words {parts lines : List Units} (hWidth : 0 < width) (hFits : ∀ line ∈ lines, line.length ≤ width)
    (hWords : lines.flatMap (words isBlank) = (parts.flatMap (words isBlank)).flatMap (pieces width)) : Printed width parts lines := by
  have hFlat : ∀ l : List Units, l.flatten.filter (!isBlank ·) = (l.flatMap (words isBlank)).flatten := by
    intro l
    induction l with
    | nil => rfl
    | cons line l ih => rw [List.flatten_cons, List.filter_append, ih, List.flatMap_cons, List.flatten_append, Words.words_flatten]
  have hJoined : ∀ ws : List Units, (ws.flatMap (pieces width)).flatten = ws.flatten := by
    intro ws
    induction ws with
    | nil => rfl
    | cons word ws ih => rw [List.flatMap_cons, List.flatten_append, ih, Words.flatten_pieces hWidth, List.flatten_cons]
  exact ⟨hFits, by rw [hFlat lines, hWords, hJoined, ← hFlat parts], hWords⟩

theorem printed_wrapText (hWidth : 0 < width) : Printed width [text] (wrapText text width) := by
  obtain ⟨hFits, hWords⟩ := @wrapText_spec _ text hWidth
  exact printed_of_words hWidth hFits (by rw [hWords, List.flatMap_singleton])

theorem words_padding {n : Nat} : words isBlank (List.replicate n space ++ right) = words isBlank right := by
  apply Words.words_blanks
  intro c hMem
  rw [List.eq_of_mem_replicate hMem]
  exact isBlank_space

theorem length_padStart (h : right.length ≤ width) : (padStart width right).length = width := by
  rw [padStart, List.length_append, List.length_replicate]
  omega

theorem padRow_spec (hWidth : 0 < width) (hRight : right.length ≤ width) :
    Printed width [left, right] (padRow left right width) ∧ EndsAtEdge width right (padRow left right width) := by
  have hPieces := @Words.flatMap_pieces_of_le _ isBlank _ _ hRight
  have hParts : [left, right].flatMap (words isBlank) = words isBlank left ++ words isBlank right := by
    rw [List.flatMap_cons, List.flatMap_singleton]
  unfold padRow
  split
  · rename_i hRoom
    obtain ⟨n, hn⟩ : ∃ n, width - left.length - right.length = n + 1 := ⟨width - left.length - right.length - 1, by omega⟩
    have hLength : (left ++ List.replicate (width - left.length - right.length) space ++ right).length = width := by
      rw [List.length_append, List.length_append, List.length_replicate]
      omega
    have hLeft := @Words.flatMap_pieces_of_le _ isBlank left width (by omega)
    refine ⟨printed_of_words hWidth ?_ ?_, _, rfl, List.suffix_append _ _, hLength⟩
    · intro line hMem
      rw [List.mem_singleton.mp hMem, hLength]
    · rw [hParts, List.flatMap_append, hLeft, hPieces, List.flatMap_singleton, hn, List.replicate_succ, List.append_assoc, List.cons_append,
        Words.words_append_cons isBlank_space, words_padding]
  · obtain ⟨hFits, hWords⟩ := @wrapText_spec _ left hWidth
    refine ⟨printed_of_words hWidth ?_ ?_, padStart width right, List.getLast?_concat, List.suffix_append _ _, length_padStart hRight⟩
    · intro line hMem
      rcases List.mem_append.mp hMem with hMem | hMem
      · exact hFits line hMem
      · rw [List.mem_singleton.mp hMem, length_padStart hRight]
    · rw [hParts, List.flatMap_append, List.flatMap_append, hPieces, hWords, List.flatMap_singleton, padStart, words_padding]

end Wrap

theorem charsPerLine_pos (paper : PaperWidth) : 0 < charsPerLine paper := by
  cases paper with
  | mm58 => decide
  | mm80 => decide

theorem right_le_of_fits {left right : Units} {width : Nat} (hFits : ∀ line ∈ padRow left right width, line.length ≤ width) :
    right.length ≤ width := by
  unfold padRow at hFits
  split at hFits
  · omega
  · have hLast := hFits (padStart width right) (List.mem_append_right _ List.mem_cons_self)
    rw [padStart, List.length_append] at hLast
    omega

/-- The bytes are those of the printed lines, which are printed well exactly if the right part of each row fits on a line. -/
theorem escpos_lines (doc : PrintDocument) (paperWidthMm : PaperWidth) :
    (buildEscposBytes doc paperWidthMm =
        [ESC, 0x40] ++ doc.lines.flatMap (lineBytes (charsPerLine paperWidthMm)) ++ [LF, LF, LF] ++ [GS, 0x56, 0x00] ∧
      ∀ line ∈ doc.lines, Emits (charsPerLine paperWidthMm) line (lineBytes (charsPerLine paperWidthMm) line)) ∧
    ((∀ line ∈ doc.lines, PrintsWell (charsPerLine paperWidthMm) line) ↔ ∀ line ∈ doc.lines, RightFits (charsPerLine paperWidthMm) line) := by
  have hWidth := charsPerLine_pos paperWidthMm
  refine ⟨⟨rfl, fun line _ => emits_lineBytes line⟩, ?_⟩
  constructor
  · intro hWell line hMem
    have hLine := hWell line hMem
    cases line with
    | row left right bold => exact right_le_of_fits hLine.1.fits
    | text text bold align => trivial
    | rule => trivial
    | spacer => trivial
  · intro hRight line hMem
    have hLine := hRight line hMem
    cases line with
    | row left right bold => exact padRow_spec hWidth hLine
    | text text bold align => exact printed_wrapText hWidth
    | rule =>
      intro printed hPrinted
      rw [List.mem_singleton.mp hPrinted, List.length_replicate]
    | spacer =>
      intro printed hPrinted
      rw [List.mem_singleton.mp hPrinted]
      exact Nat.zero_le _

def longRow : PrintLine := .row [] (List.replicate 33 0x78) false

theorem long_row_overflows : ¬ ∀ (doc : PrintDocument) (paperWidthMm : PaperWidth),
    ∀ line ∈ doc.lines, PrintsWell (charsPerLine paperWidthMm) line := by
  intro h
  have hWell := h { lines := [longRow] } .mm58 longRow List.mem_cons_self
  have hLe := right_le_of_fits hWell.1.fits
  rw [List.length_replicate] at hLe
  exact absurd hLe (by decide)

end RestaurantOs.Escpos
