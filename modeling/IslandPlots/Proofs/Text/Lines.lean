import IslandPlots.Text.Lines
import IslandPlots.Proofs.Text.Utf8
import Mathlib.Tactic.Use

/-!
# Reading back written lines

What is written line by line is read line by line (`readLines_writeLines`), also when it is
written after other bytes.  If those end with an unfinished line, a line feed has to come
first (`ending`); it leaves the lines before it as they were, unless the unfinished line
ends with a carriage return, which the line feed would swallow (`readLines_append_ending`,
`readLines_append_of_not_terminable`).

When writing stops after `k` bytes, the lines finished until then are read as they are, and
what is there of the next one is read as a line too: `torn lines k`
(`readLines_take_writeLines`).

The bytes are split into lines before they are decoded.  It makes no difference to decode them first
(`readLines_eq_linesOf`).

Lines that were written stand among the bytes of a file (`StandIn`), and go on to do so whatever
is added at its end (`StandIn.append_bytes`).
-/

namespace IslandPlots.Text

/-! ### Unfinished lines -/

/-- Whether there is an unfinished line at the end. -/
def isUnfinished (bytes : Bytes) : Bool :=
  bytes ≠ [] ∧ bytes.getLast? ≠ some lineFeed

/-- The bytes that finish an unfinished line. -/
def ending (bytes : Bytes) : Bytes :=
  if isUnfinished bytes then [lineFeed] else []

/-- The bytes do not end with a carriage return, so a line feed after them changes no
line. -/
def Terminable (bytes : Bytes) : Prop :=
  bytes.getLast? ≠ some carriageReturn

instance (bytes : Bytes) : Decidable (Terminable bytes) :=
  inferInstanceAs (Decidable (_ ≠ _))

/-- Bytes after a line feed do not touch the lines before it. -/
theorem linesFrom_append_lineFeed (seen xs ys : Bytes) :
  linesFrom seen (xs ++ lineFeed :: ys) = linesFrom seen (xs ++ [lineFeed]) ++ splitLines ys
  := by
  induction xs generalizing seen with
  | nil => simp [linesFrom, splitLines]
  | cons byte xs ih =>
    simp only [List.cons_append, linesFrom, ih]
    split <;> simp

/-- A line feed after an unfinished line that does not end with a carriage return leaves
the line as it was. -/
theorem linesFrom_finish
    {byte : UInt8} (hl : byte ≠ lineFeed) (hc : byte ≠ carriageReturn) (seen xs : Bytes) :
  linesFrom seen (xs ++ [byte, lineFeed]) = linesFrom seen (xs ++ [byte])
  := by
  induction xs generalizing seen with
  | nil => simp [linesFrom, finishLine, hl, hc]
  | cons first xs ih => simp only [List.cons_append, linesFrom, ih]

/-- Bytes that are not unfinished are none or end with a line feed. -/
theorem eq_nil_or_of_not_isUnfinished {bytes : Bytes} (h : isUnfinished bytes = false) :
  bytes = [] ∨ ∃ xs, bytes = xs ++ [lineFeed]
  := by
  rcases List.eq_nil_or_concat bytes with rfl | ⟨xs, byte, rfl⟩
  · exact .inl rfl
  · right
    use xs
    simpa [isUnfinished] using h

/-- Bytes are not unfinished when there are none or they end with a line feed. -/
theorem isUnfinished_of_finished
    {bytes : Bytes} (h : bytes = [] ∨ bytes.getLast? = some lineFeed) :
  isUnfinished bytes = false
  := by
  rcases h with hnil | hlast
  · simp [isUnfinished, hnil]
  · simp [isUnfinished, hlast]

/-- Bytes that are not unfinished need no ending. -/
theorem ending_of_not_isUnfinished {bytes : Bytes} (h : isUnfinished bytes = false) :
  ending bytes = []
  := by
  rw [ending, h]
  rfl

/-- Bytes that are not unfinished are terminable. -/
theorem terminable_of_not_isUnfinished {bytes : Bytes} (h : isUnfinished bytes = false) :
  Terminable bytes
  := by
  rcases eq_nil_or_of_not_isUnfinished h with rfl | ⟨xs, rfl⟩
  · decide
  · rw [Terminable, List.getLast?_concat]
    decide

/-- Lines that are written after the ending of other bytes come after the lines of
these. -/
theorem splitLines_append_ending {xs : Bytes} (h : Terminable xs) (ys : Bytes) :
  splitLines (xs ++ ending xs ++ ys) = splitLines xs ++ splitLines ys
  := by
  unfold ending
  split
  next hu =>
    rcases List.eq_nil_or_concat xs with rfl | ⟨init, byte, rfl⟩
    · cases hu
    · have hl : byte ≠ lineFeed := by
        simpa [isUnfinished] using hu
      have hc : byte ≠ carriageReturn := by
        simpa [Terminable] using h
      rw [List.concat_eq_append, splitLines, splitLines, List.append_assoc (init ++ [byte]),
        List.singleton_append, linesFrom_append_lineFeed, List.append_assoc,
        List.singleton_append, linesFrom_finish hl hc]
  next hu =>
    rw [Bool.not_eq_true] at hu
    rw [List.append_nil]
    rcases eq_nil_or_of_not_isUnfinished hu with rfl | ⟨init, rfl⟩
    · rfl
    · rw [splitLines, splitLines, List.append_assoc, List.singleton_append,
        linesFrom_append_lineFeed]

/-- Lines that are read after the ending of other bytes come after the lines of these. -/
theorem readLines_append_ending {xs : Bytes} (h : Terminable xs) (ys : Bytes) :
  readLines (xs ++ ending xs ++ ys) = readLines xs ++ readLines ys
  := by
  simp only [readLines, splitLines_append_ending h, List.map_append]

/-! ### The carriage return at the end -/

/-- A line feed after a carriage return takes it from the unfinished line. -/
theorem linesFrom_carriageReturn (seen xs : Bytes) :
  ∃ front last, linesFrom seen (xs ++ [carriageReturn]) = front ++ [last ++ [carriageReturn]]
    ∧ linesFrom seen (xs ++ [carriageReturn, lineFeed]) = front ++ [last]
  := by
  induction xs generalizing seen with
  | nil =>
    use [], seen.reverse
    simp [linesFrom, finishLine, carriageReturn, lineFeed]
  | cons byte xs ih =>
    simp only [List.cons_append, linesFrom]
    split
    next =>
      obtain ⟨front, last, hopen, hclosed⟩ := ih []
      use finishLine seen :: front, last
      rw [hopen, hclosed]
      exact ⟨rfl, rfl⟩
    next => exact ih (byte :: seen)

/-- A carriage return at the end of a line is read as the last character of the line. -/
@[simp]
theorem decodeLenient_carriageReturn (bytes : Bytes) :
  decodeLenient (bytes ++ [carriageReturn]) = decodeLenient bytes ++ ['\r']
  := by
  rw [decodeLenient, decode_append_ascii bytes (by decide), List.map_append]
  rfl

/-- Bytes that are written after the ending of others whose last byte is a carriage return are
read after their lines, but the last of these has lost the carriage return. -/
theorem readLines_append_of_not_terminable {xs : Bytes} (h : ¬ Terminable xs) :
  ∃ front last, readLines xs = front ++ [last ++ "\r"]
    ∧ ∀ ys, readLines (xs ++ ending xs ++ ys) = front ++ last :: readLines ys
  := by
  obtain ⟨init, rfl⟩ := List.getLast?_eq_some_iff.1 (Decidable.not_not.1 h)
  have hunfinished : isUnfinished (init ++ [carriageReturn]) = true := by
    simp [isUnfinished, carriageReturn, lineFeed]
  obtain ⟨front, last, hopen, hclosed⟩ := linesFrom_carriageReturn [] init
  use front.map fun line => String.ofList (decodeLenient line), String.ofList (decodeLenient last)
  constructor
  · rw [readLines, splitLines, hopen, List.map_append, List.map_singleton,
      decodeLenient_carriageReturn, String.ofList_append]
  · intro ys
    rw [ending, hunfinished, if_pos rfl, List.append_assoc (init ++ [carriageReturn]),
      List.singleton_append, readLines, splitLines, linesFrom_append_lineFeed,
      List.append_assoc, List.singleton_append, hclosed, List.map_append, List.map_append]
    simp [readLines]

/-- Exactly behind a carriage return the line feed that finishes a line changes it. -/
theorem readLines_append_ending_iff (xs ys : Bytes) :
  readLines (xs ++ ending xs ++ ys) = readLines xs ++ readLines ys ↔ Terminable xs
  := by
  by_cases h : Terminable xs
  · exact iff_of_true (readLines_append_ending h ys) h
  · obtain ⟨front, last, hopen, hclosed⟩ := readLines_append_of_not_terminable h
    rw [hopen, hclosed, List.append_assoc]
    refine iff_of_false (fun hsame => ?_) h
    have hlast : last = last ++ "\r" := (List.cons.inj (List.append_cancel_left hsame)).1
    have hlength := congrArg String.length hlast
    rw [String.length_append, show "\r".length = 1 from rfl] at hlength
    omega

/-! ### Written lines -/

/-- A line of text: it holds no character that ends a line. -/
def Unbroken (line : String) : Prop :=
  '\n' ∉ line.toList ∧ '\r' ∉ line.toList

instance (line : String) : Decidable (Unbroken line) :=
  inferInstanceAs (Decidable (_ ∧ _))

/-- There is no line feed among the bytes of a line. -/
theorem lineFeed_not_mem {line : String} (h : Unbroken line) :
  lineFeed ∉ encodeString line
  := by
  intro hmem
  exact h.1 (mem_of_mem_encode hmem (by decide))

/-- There is no carriage return among the bytes of a line. -/
theorem carriageReturn_not_mem {line : String} (h : Unbroken line) :
  carriageReturn ∉ encodeString line
  := by
  intro hmem
  exact h.2 (mem_of_mem_encode hmem (by decide))

/-- There is no carriage return among the bytes of written lines. -/
theorem carriageReturn_not_mem_writeLines
    {lines : List String} (h : ∀ line ∈ lines, Unbroken line) :
  carriageReturn ∉ writeLines lines
  := by
  intro hmem
  obtain ⟨line, hline, hbyte⟩ := List.mem_flatMap.1 hmem
  rcases List.mem_append.1 hbyte with hbyte | hbyte
  · exact carriageReturn_not_mem (h line hline) hbyte
  · exact absurd hbyte (by decide)

/-- Bytes without a line feed belong to the current line. -/
theorem linesFrom_append_of_not_mem
    {xs : Bytes} (h : lineFeed ∉ xs) (seen ys : Bytes) :
  linesFrom seen (xs ++ ys) = linesFrom (xs.reverse ++ seen) ys
  := by
  induction xs generalizing seen with
  | nil => rfl
  | cons byte xs ih =>
    rw [List.mem_cons, not_or] at h
    rw [List.cons_append, linesFrom, if_neg (Ne.symm h.1), ih h.2, List.reverse_cons,
      List.append_assoc, List.singleton_append]

/-- A line that does not end with a carriage return is finished as it is. -/
theorem finishLine_reverse {xs : Bytes} (h : carriageReturn ∉ xs) :
  finishLine xs.reverse = xs
  := by
  rcases List.eq_nil_or_concat xs with rfl | ⟨init, byte, rfl⟩
  · rfl
  · have hbyte : byte ≠ carriageReturn := by
      rintro rfl
      simp at h
    simp [finishLine, hbyte]

/-- A written line is read before the lines after it. -/
theorem readLines_line_append {line : String} (h : Unbroken line) (rest : Bytes) :
  readLines (encodeString line ++ lineFeed :: rest) = line :: readLines rest
  := by
  rw [readLines, splitLines, linesFrom_append_of_not_mem (lineFeed_not_mem h), List.append_nil,
    linesFrom, if_pos rfl, finishLine_reverse (carriageReturn_not_mem h), List.map_cons,
    encodeString, decodeLenient_encode, String.ofList_toList]
  rfl

/-- The bytes of a line and of the lines after it. -/
@[simp]
theorem writeLines_cons (line : String) (lines : List String) :
  writeLines (line :: lines) = encodeString line ++ lineFeed :: writeLines lines
  := by
  simp [writeLines]

/-- What is written line by line is read line by line. -/
@[simp]
theorem readLines_writeLines {lines : List String} (h : ∀ line ∈ lines, Unbroken line) :
  readLines (writeLines lines) = lines
  := by
  induction lines with
  | nil => rfl
  | cons line lines ih =>
    rw [List.forall_mem_cons] at h
    rw [writeLines_cons, readLines_line_append h.1, ih h.2]

/-! ### Torn lines -/

/-- The lines that the first `k` bytes of written lines show: those that are finished, and
what there is of the next one. -/
def torn : List String → Nat → List String
  | [], _ => []
  | line :: lines, k =>
    let size := (encodeString line).length
    if size < k then line :: torn lines (k - (size + 1))
    else if k = 0 then []
    else [String.ofList (shown line.toList k)]

/-- The first `k` bytes of written lines are read as torn lines. -/
theorem readLines_take_writeLines
    {lines : List String} (h : ∀ line ∈ lines, Unbroken line) (k : Nat) :
  readLines ((writeLines lines).take k) = torn lines k
  := by
  induction lines generalizing k with
  | nil =>
    rw [show writeLines [] = [] from rfl, List.take_nil]
    rfl
  | cons line lines ih =>
    rw [List.forall_mem_cons] at h
    rw [writeLines_cons, torn]
    split_ifs with hsize hzero
    · obtain ⟨m, rfl⟩ : ∃ m, k = (encodeString line).length + (m + 1) :=
        ⟨k - (encodeString line).length - 1, by omega⟩
      rw [List.take_length_add_append, List.take_succ_cons, readLines_line_append h.1,
        ih h.2]
      congr 2
      omega
    · subst hzero
      rfl
    · have htake : lineFeed ∉ (encodeString line).take k := fun hmem =>
        lineFeed_not_mem h.1 (List.mem_of_mem_take hmem)
      have hne : ((encodeString line).take k).reverse ≠ [] := by
        apply List.ne_nil_of_length_pos
        rw [List.length_reverse, List.length_take]
        omega
      rw [List.take_append_of_le_length (by omega), readLines, splitLines,
        ← List.append_nil (List.take _ _), linesFrom_append_of_not_mem htake,
        List.append_nil, linesFrom, if_neg hne, List.reverse_reverse, List.map_singleton,
        encodeString, decodeLenient_take_encode]

/-- Writing that stops after `k` bytes adds torn lines to those that were there. -/
theorem readLines_append_take
    {xs : Bytes} (hxs : Terminable xs) {lines : List String}
    (h : ∀ line ∈ lines, Unbroken line) (k : Nat) :
  readLines (xs ++ (ending xs ++ writeLines lines).take k)
    = readLines xs ++ torn lines (k - (ending xs).length)
  := by
  by_cases hk : k < (ending xs).length
  · have hzero : k = 0 := by
      have : (ending xs).length ≤ 1 := by
        unfold ending
        split <;> simp
      omega
    subst hzero
    cases lines <;> simp [torn]
  · rw [List.take_append, List.take_of_length_le (by omega), ← List.append_assoc,
      readLines_append_ending hxs, readLines_take_writeLines h]

/-- Bytes stay terminable when written lines, or some of their bytes, are added. -/
theorem terminable_append_take
    {xs : Bytes} (hxs : Terminable xs) {lines : List String}
    (h : ∀ line ∈ lines, Unbroken line) (k : Nat) :
  Terminable (xs ++ (ending xs ++ writeLines lines).take k)
  := by
  intro hlast
  rw [List.getLast?_append] at hlast
  rcases hnew : ((ending xs ++ writeLines lines).take k).getLast? with _ | byte
  · rw [hnew] at hlast
    exact hxs hlast
  · rw [hnew] at hlast
    obtain rfl : byte = carriageReturn := Option.some.inj hlast
    have hmem := List.mem_of_mem_take (List.mem_of_getLast? hnew)
    rcases List.mem_append.1 hmem with hmem | hmem
    · unfold ending at hmem
      split at hmem
      · exact absurd hmem (by decide)
      · cases hmem
    · exact carriageReturn_not_mem_writeLines h hmem

/-! ### Lines among bytes -/

/-- Lines stand among bytes: each is a finished line and shows just its text, and they follow one
another in order, with other lines between them perhaps. -/
def StandIn (lines : List String) (bytes : Bytes) : Prop :=
  ∃ finished rest, bytes = finished ++ rest ∧ isUnfinished finished = false
    ∧ lines.Sublist (readLines finished)

/-- Bytes after finished lines are read after them. -/
theorem readLines_append_of_finished
    {xs : Bytes} (h : isUnfinished xs = false) (ys : Bytes) :
  readLines (xs ++ ys) = readLines xs ++ readLines ys
  := by
  have hread := readLines_append_ending (terminable_of_not_isUnfinished h) ys
  rwa [ending_of_not_isUnfinished h, List.append_nil] at hread

/-- An ending leaves no line unfinished. -/
@[simp]
theorem isUnfinished_append_ending (xs : Bytes) :
  isUnfinished (xs ++ ending xs) = false
  := by
  unfold ending
  split
  next =>
    apply isUnfinished_of_finished
    right
    apply List.getLast?_concat
  next h =>
    rw [List.append_nil]
    exact Bool.eq_false_iff.2 h

/-- Written lines leave no line unfinished. -/
theorem isUnfinished_append_writeLines
    {xs : Bytes} (h : isUnfinished xs = false) (lines : List String) :
  isUnfinished (xs ++ writeLines lines) = false
  := by
  rcases List.eq_nil_or_concat lines with rfl | ⟨front, line, rfl⟩
  · rw [show writeLines [] = [] from rfl, List.append_nil]
    exact h
  · apply isUnfinished_of_finished
    right
    rw [writeLines, List.concat_eq_append, List.flatMap_append, List.flatMap_singleton,
      ← List.append_assoc, ← List.append_assoc]
    apply List.getLast?_concat

/-- No lines stand among any bytes. -/
theorem standIn_nil (bytes : Bytes) :
  StandIn [] bytes
  := ⟨[], bytes, rfl, rfl, List.nil_sublist _⟩

namespace StandIn

variable {lines : List String} {bytes : Bytes} (h : StandIn lines bytes)

include h

/-- Lines that stand among bytes are read. -/
theorem sublist :
  lines.Sublist (readLines bytes)
  := by
  obtain ⟨finished, rest, rfl, hfinished, hsublist⟩ := h
  rw [readLines_append_of_finished hfinished]
  exact hsublist.trans (List.sublist_append_left _ _)

/-- Lines stand where they stood when bytes are added, whatever these are. -/
theorem append_bytes (more : Bytes) :
  StandIn lines (bytes ++ more)
  := by
  obtain ⟨finished, rest, rfl, hfinished, hsublist⟩ := h
  exact ⟨finished, rest ++ more, List.append_assoc _ _ _, hfinished, hsublist⟩

/-- Lines that are written after the ending of other bytes come to stand after those that stood
there. -/
theorem append_lines {new : List String} (hnew : ∀ line ∈ new, Unbroken line) :
  StandIn (lines ++ new) (bytes ++ (ending bytes ++ writeLines new))
  := by
  have hended := isUnfinished_append_ending bytes
  refine ⟨_, [], (List.append_nil _).symm, ?_, ?_⟩
  · rw [← List.append_assoc]
    exact isUnfinished_append_writeLines hended new
  · rw [← List.append_assoc, readLines_append_of_finished hended, readLines_writeLines hnew]
    exact (h.append_bytes (ending bytes)).sublist.append (List.Sublist.refl new)

end StandIn

/-- Written lines stand among their bytes. -/
theorem standIn_writeLines {lines : List String} (h : ∀ line ∈ lines, Unbroken line) :
  StandIn lines (writeLines lines)
  := (standIn_nil []).append_lines h

/-! ### Lines of texts -/

/-- A finished line without the carriage return at its end. -/
def chomp (line : List Char) : List Char :=
  if line.getLast? = some '\r' then line.dropLast else line

/-- The lines whose parts between line feeds are given.  Each part but the last is a finished line,
and the last is an unfinished one, unless it is empty. -/
def linesOfParts : List (List Char) → List (List Char)
  | [] => []
  | [last] => if last = [] then [] else [last]
  | part :: parts => chomp part :: linesOfParts parts

/-- The lines of a text. -/
def linesOf (text : List Char) : List (List Char) :=
  linesOfParts (text.splitOn '\n')

/-- A text without a line feed is an unfinished line, unless it is empty. -/
theorem linesOf_of_not_mem {text : List Char} (h : '\n' ∉ text) :
  linesOf text = if text = [] then [] else [text]
  := by
  rw [linesOf, List.splitOn_eq_singleton h]
  rfl

/-- The first line of a text. -/
theorem linesOf_append {line : List Char} (h : '\n' ∉ line) (text : List Char) :
  linesOf (line ++ '\n' :: text) = chomp line :: linesOf text
  := by
  rw [linesOf, List.splitOn_append_cons_self_of_not_mem h, linesOf]
  rcases hparts : text.splitOn '\n' with _ | ⟨part, parts⟩
  · exact absurd hparts (List.splitOn_ne_nil _ _)
  · rfl

/-- A line feed is decoded only from its byte. -/
theorem lineFeed_not_mem_decodeLenient {bytes : Bytes} (h : lineFeed ∉ bytes) :
  '\n' ∉ decodeLenient bytes
  := by
  intro hmem
  obtain ⟨found, hfound, heq⟩ := List.mem_map.1 hmem
  rcases found with _ | c
  · cases heq
  · obtain rfl : c = '\n' := heq
    obtain ⟨byte, hbyte, hvalue⟩ :=
      exists_of_mem_decodeFrom (by decide) (by decide) (show Pending.none.High from trivial) hfound
    obtain rfl : byte = lineFeed := UInt8.toNat_inj.1 hvalue
    exact h hbyte

/-- Decoding a finished line takes the carriage return from its end before or after. -/
theorem decodeLenient_finishLine (seen : Bytes) :
  decodeLenient (finishLine seen) = chomp (decodeLenient seen.reverse)
  := by
  rcases seen with _ | ⟨byte, rest⟩
  · rfl
  by_cases hbyte : byte = carriageReturn
  · rw [finishLine, if_pos hbyte, hbyte, List.reverse_cons, decodeLenient_carriageReturn, chomp,
      List.getLast?_concat, if_pos rfl, List.dropLast_concat]
  · rw [finishLine, if_neg hbyte, chomp, if_neg]
    intro hlast
    rw [List.reverse_cons, decodeLenient, List.getLast?_map] at hlast
    obtain ⟨found, hfound, heq⟩ := Option.map_eq_some_iff.1 hlast
    rcases found with _ | c
    · cases heq
    · obtain rfl : c = '\r' := heq
      exact hbyte (UInt8.toNat_inj.1 (toNat_of_getLast?_decode (by decide) (by decide) hfound))

/-- The lines of bytes after others without a line feed are those of the text to which all of them
amount. -/
theorem map_decodeLenient_linesFrom {seen : Bytes} (h : lineFeed ∉ seen) (bytes : Bytes) :
  (linesFrom seen bytes).map decodeLenient = linesOf (decodeLenient (seen.reverse ++ bytes))
  := by
  have hseen : lineFeed ∉ seen.reverse := fun hmem => h (List.mem_reverse.1 hmem)
  induction bytes generalizing seen with
  | nil =>
    rw [List.append_nil, linesOf_of_not_mem (lineFeed_not_mem_decodeLenient hseen), linesFrom]
    rcases seen with _ | ⟨byte, seen⟩
    · rfl
    · have hne : decodeLenient (byte :: seen).reverse ≠ [] := fun hnil =>
        decode_ne_nil (List.reverse_ne_nil_iff.2 (List.cons_ne_nil _ _)) (List.map_eq_nil_iff.1 hnil)
      rw [if_neg hne, if_neg (List.cons_ne_nil _ _)]
      rfl
  | cons byte bytes ih =>
    rw [linesFrom]
    split
    next hbyte =>
      have hsplit : decodeLenient (seen.reverse ++ byte :: bytes)
          = decodeLenient seen.reverse ++ '\n' :: decodeLenient bytes := by
        rw [decodeLenient, decode_append_ascii _ (by rw [hbyte]; decide), List.map_append, hbyte]
        rfl
      rw [hsplit, linesOf_append (lineFeed_not_mem_decodeLenient hseen), List.map_cons,
        decodeLenient_finishLine, ih List.not_mem_nil List.not_mem_nil]
      rfl
    next hbyte =>
      have hnot : lineFeed ∉ byte :: seen := List.not_mem_cons_of_ne_of_not_mem (Ne.symm hbyte) h
      rw [ih hnot (fun hmem => hnot (List.mem_reverse.1 hmem)), List.reverse_cons,
        List.append_assoc, List.singleton_append]

/-- It does not matter whether bytes are decoded before they are split into lines or after that. -/
theorem readLines_eq_linesOf (bytes : Bytes) :
  readLines bytes = (linesOf (decodeLenient bytes)).map String.ofList
  := by
  have hlines := map_decodeLenient_linesFrom (List.not_mem_nil) bytes
  rw [List.reverse_nil, List.nil_append] at hlines
  rw [← hlines, List.map_map]
  rfl

end IslandPlots.Text
