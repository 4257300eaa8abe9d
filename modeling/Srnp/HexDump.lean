import Srnp.GuiFormat
import Srnp.Lib.Words

/-! The hex dump of the gui: the two loops that write it, and how the columns of
a line are read back. -/
namespace Srnp.Gui
open Numerals Words

def hexCell (row : Bytes) (i : Nat) : Bytes :=
  (match row[i]? with
    | some byte => padded 16 2 byte.toNat ++ [32]
    | none => [32, 32, 32]) ++ if i = kBytesPerLine / 2 - 1 then [32] else []

def shown (byte : UInt8) : UInt8 := if isPrintable byte then byte else 46

def hexLine (start : Nat) (row : Bytes) : Bytes :=
  padded 16 8 start ++ [32, 32] ++ (List.range kBytesPerLine).flatMap (hexCell row) ++ [32, 124] ++
    row.map shown ++ [124]

def hexDumpFrom (bytes : Bytes) (start : Nat) : Bytes :=
  if start < bytes.length then
    hexLine start ((bytes.drop start).take kBytesPerLine) ++
      10 :: hexDumpFrom bytes (start + kBytesPerLine)
  else []
termination_by bytes.length - start
decreasing_by
  rw [kBytesPerLine]
  omega

def hexDump (bytes : Bytes) : Bytes := hexDumpFrom bytes 0

/-! ### Reading a dump -/

def readHexColumn (column : Bytes) : Option Bytes :=
  (words 32 id column).mapM fun word =>
    if word.length = 2 then (value 16 word).map UInt8.ofNat else none

def chunk (bytes : Bytes) (i : Nat) : Bytes :=
  (bytes.drop (kBytesPerLine * i)).take kBytesPerLine

/-- A line of a dump, column by column. Everything before the printable column
takes sixty characters. -/
structure ShowsLine (bytes : Bytes) (i : Nat) (row : Bytes) : Prop where
  offset : (row.take 8).length = 8 ∧ value 16 (row.take 8) = some (16 * i)
  hex : readHexColumn ((row.take 60).drop 8) = some (chunk bytes i)
  printable : row.drop 60 = 124 :: (chunk bytes i).map shown ++ [124]

/-- A dump is made of lines that end in a newline, one for every sixteen bytes. -/
def ShowsEveryByte (bytes dump : Bytes) : Prop :=
  ∃ lines : List Bytes, dump.splitOn 10 = lines ++ [[]] ∧
    lines.length = (bytes.length + 15) / 16 ∧
    ∀ i row, lines[i]? = some row → ShowsLine bytes i row

/-! ### The columns -/

theorem hexCell_length (row : Bytes) (i : Nat) :
    (hexCell row i).length = if i = 7 then 4 else 3 := by
  have hgap : (if i = kBytesPerLine / 2 - 1 then [(32 : UInt8)] else []).length =
      if i = 7 then 1 else 0 := apply_ite List.length (i = 7) [32] []
  unfold hexCell
  rw [List.length_append, hgap]
  cases row[i]? with
  | none => by_cases hmiddle : i = 7 <;> simp [hmiddle]
  | some byte => by_cases hmiddle : i = 7 <;> simp [hmiddle, (padded_byte byte).1]

theorem hexCells_length (row : Bytes) :
    ((List.range kBytesPerLine).flatMap (hexCell row)).length = 49 := by
  simp only [List.length_flatMap, hexCell_length]
  decide

theorem words_space (text : Bytes) : words 32 id (32 :: text) = words 32 id text :=
  words_separator rfl

theorem words_hexCell (row rest : Bytes) (i : Nat) :
    words 32 id (hexCell row i ++ rest) =
      (row[i]?.map fun byte => padded 16 2 byte.toNat).toList ++ words 32 id rest := by
  have hgap : words 32 id ((if i = kBytesPerLine / 2 - 1 then [32] else []) ++ rest) =
      words 32 id rest := by
    split
    · exact words_space rest
    · rfl
  unfold hexCell
  cases row[i]? with
  | none =>
    simp only [List.cons_append, List.nil_append, words_space, hgap]
    rfl
  | some byte =>
    have hword : (32 : UInt8) ∉ padded 16 2 byte.toNat := by
      intro hmem
      obtain ⟨digit, hdigit, hspace⟩ := mem_padded (by decide) hmem
      revert digit
      decide
    have hkept : id (padded 16 2 byte.toNat) ≠ [] := by
      intro hnil
      have hlength := (padded_byte byte).1
      rw [show padded 16 2 byte.toNat = [] from hnil] at hlength
      contradiction
    simp only [List.append_assoc, List.cons_append, List.nil_append,
      words_cons_of_ne_nil hword hkept, hgap]
    rfl

theorem words_hexCells (row rest : Bytes) (columns : List Nat) :
    words 32 id (columns.flatMap (hexCell row) ++ rest) =
      (columns.filterMap (row[·]?)).map (fun byte => padded 16 2 byte.toNat) ++
        words 32 id rest := by
  induction columns with
  | nil => rfl
  | cons i columns ih =>
    rw [List.flatMap_cons, List.append_assoc, words_hexCell, ih, List.filterMap_cons]
    cases row[i]? <;> rfl

theorem filterMap_getElem? (row : Bytes) (count : Nat) :
    (List.range count).filterMap (row[·]?) = row.take count := by
  induction count with
  | zero => rfl
  | succ count ih =>
    rw [List.range_succ, List.filterMap_append, ih, List.take_add_one, List.filterMap_cons]
    cases row[count]? <;> rfl

theorem mapM_hexWords (row : Bytes) :
    (row.map fun byte => padded 16 2 byte.toNat).mapM (fun word =>
      if word.length = 2 then (value 16 word).map UInt8.ofNat else none) = some row := by
  induction row with
  | nil => rfl
  | cons byte row ih =>
    obtain ⟨hlength, hvalue⟩ := padded_byte byte
    rw [List.map_cons, List.mapM_cons, ih, if_pos hlength, hvalue, Option.map_some,
      UInt8.ofNat_toNat]
    rfl

theorem readHexColumn_cells {row : Bytes} (hshort : row.length ≤ kBytesPerLine) :
    readHexColumn ([32, 32] ++ (List.range kBytesPerLine).flatMap (hexCell row) ++ [32]) =
      some row := by
  have hwords : words 32 id
      ([32, 32] ++ (List.range kBytesPerLine).flatMap (hexCell row) ++ [32]) =
        row.map fun byte => padded 16 2 byte.toNat := by
    simp only [List.cons_append, List.nil_append, words_space]
    rw [words_hexCells, filterMap_getElem?, List.take_of_length_le hshort]
    exact List.append_nil _
  rw [readHexColumn, hwords]
  exact mapM_hexWords row

theorem hexLine_shows {bytes : Bytes} {i : Nat} (hsmall : 16 * i < 2 ^ 32) :
    ShowsLine bytes i (hexLine (16 * i) (chunk bytes i)) := by
  have hoffset : (padded 16 8 (16 * i)).length = 8 :=
    padded_length (by decide) (by decide) (Nat.lt_of_lt_of_le hsmall (by decide))
  have hvalue := @value_padded 16 (by decide) (by decide) 8 (16 * i)
  have hcells := hexCells_length (chunk bytes i)
  have hshort : (chunk bytes i).length ≤ kBytesPerLine := by
    rw [chunk, List.length_take]
    exact Nat.min_le_left _ _
  have hread := readHexColumn_cells hshort
  have hline : hexLine (16 * i) (chunk bytes i) = (padded 16 8 (16 * i) ++
      ([32, 32] ++ (List.range kBytesPerLine).flatMap (hexCell (chunk bytes i)) ++ [32])) ++
        (124 :: (chunk bytes i).map shown ++ [124]) := by
    simp only [hexLine, List.append_assoc, List.cons_append, List.nil_append]
  generalize padded 16 8 (16 * i) = column at hline hoffset hvalue
  generalize (List.range kBytesPerLine).flatMap (hexCell (chunk bytes i)) = cells
    at hline hcells hread
  have hfront : (column ++ ([32, 32] ++ cells ++ [32])).length = 60 := by
    simp only [List.length_append, List.length_cons, List.length_nil, hoffset, hcells]
  rw [hline]
  constructor
  · rw [List.append_assoc, List.take_left' hoffset]
    exact ⟨hoffset, hvalue⟩
  · rw [List.take_left' hfront, List.drop_left' hoffset]
    exact hread
  · exact List.drop_left' hfront

/-! ### The lines -/

theorem shown_printable (byte : UInt8) : isPrintable (shown byte) := by
  unfold shown
  by_cases h : isPrintable byte
  · rwa [if_pos h]
  · rw [if_neg h]
    decide

theorem hexCell_printable {row : Bytes} {i : Nat} {byte : UInt8} (h : byte ∈ hexCell row i) :
    isPrintable byte := by
  have hspaces : ∀ spaces : Bytes, (∀ space ∈ spaces, space = 32) → byte ∈ spaces →
      isPrintable byte := by
    intro spaces hspaces hmem
    rw [hspaces byte hmem]
    decide
  rcases List.mem_append.mp h with hcell | hgap
  · cases hbyte : row[i]? with
    | none =>
      rw [hbyte] at hcell
      exact hspaces [32, 32, 32] (by simp) hcell
    | some source =>
      rw [hbyte] at hcell
      rcases List.mem_append.mp hcell with hdigit | hspace
      · exact padded_printable hdigit
      · exact hspaces [32] (by simp) hspace
  · refine hspaces _ ?_ hgap
    intro space hspace
    split at hspace
    · exact List.mem_singleton.mp hspace
    · contradiction

theorem hexLine_printable {start : Nat} {row : Bytes} {byte : UInt8}
    (h : byte ∈ hexLine start row) :
    isPrintable byte := by
  simp only [hexLine, List.append_assoc, List.mem_append, List.mem_flatMap, List.mem_map] at h
  rcases h with hoffset | hspace | ⟨i, -, hcell⟩ | hbar | ⟨source, -, rfl⟩ | hbar
  · exact padded_printable hoffset
  · simp only [List.mem_cons, List.not_mem_nil, or_false, or_self] at hspace
    rw [hspace]
    decide
  · exact hexCell_printable hcell
  · simp only [List.mem_cons, List.not_mem_nil, or_false] at hbar
    rcases hbar with rfl | rfl <;> decide
  · exact shown_printable source
  · rw [List.mem_singleton.mp hbar]
    decide

def lineCount (bytes : Bytes) : Nat := (bytes.length + 15) / 16

theorem hexDumpFrom_splitOn (bytes : Bytes) (i count : Nat) (hcount : i + count = lineCount bytes) :
    (hexDumpFrom bytes (kBytesPerLine * i)).splitOn 10 =
      (List.range' i count).map (fun i => hexLine (16 * i) (chunk bytes i)) ++ [[]] := by
  induction count generalizing i with
  | zero =>
    have hend : ¬ kBytesPerLine * i < bytes.length := by
      simp only [lineCount, kBytesPerLine] at hcount ⊢
      omega
    rw [hexDumpFrom, if_neg hend]
    rfl
  | succ count ih =>
    have hmore : kBytesPerLine * i < bytes.length := by
      simp only [lineCount, kBytesPerLine] at hcount ⊢
      omega
    have hnewline : (10 : UInt8) ∉ hexLine (kBytesPerLine * i) (chunk bytes i) :=
      fun hmem => absurd (hexLine_printable hmem) (by decide)
    have hnext := ih (i + 1) (by omega)
    rw [hexDumpFrom, if_pos hmore]
    change (hexLine (kBytesPerLine * i) (chunk bytes i) ++ 10 :: _).splitOn 10 = _
    rw [List.splitOn_append_cons_self_of_not_mem hnewline, ← Nat.mul_succ, hnext,
      List.range'_succ]
    rfl

theorem hexDump_lines (bytes : Bytes) :
    (hexDump bytes).splitOn 10 =
      (List.range (lineCount bytes)).map (fun i => hexLine (16 * i) (chunk bytes i)) ++ [[]] := by
  rw [List.range_eq_range']
  exact hexDumpFrom_splitOn bytes 0 _ (Nat.zero_add _)

theorem hexDump_showsEveryByte {bytes : Bytes} (hsmall : bytes.length < 2 ^ 32) :
    ShowsEveryByte bytes (hexDump bytes) := by
  refine ⟨_, hexDump_lines bytes, by rw [List.length_map, List.length_range, lineCount], ?_⟩
  intro i row hrow
  rw [List.getElem?_map] at hrow
  obtain ⟨j, hj, rfl⟩ := Option.map_eq_some_iff.mp hrow
  obtain ⟨hlast, hvalue⟩ := List.getElem?_eq_some_iff.mp hj
  rw [List.getElem_range] at hvalue
  rw [List.length_range, lineCount] at hlast
  subst hvalue
  apply hexLine_shows
  omega

theorem chunk_getElem? (bytes : Bytes) (j : Nat) :
    (chunk bytes (j / kBytesPerLine))[j % kBytesPerLine]? = bytes[j]? := by
  rw [chunk, List.getElem?_take_of_lt (Nat.mod_lt _ (by decide)), List.getElem?_drop,
    Nat.div_add_mod]

theorem ShowsEveryByte.unique {bytes other dump : Bytes} (h : ShowsEveryByte bytes dump)
    (hother : ShowsEveryByte other dump) : bytes = other := by
  obtain ⟨lines, hlines, hcount, hshows⟩ := h
  obtain ⟨lines', hlines', hcount', hshows'⟩ := hother
  obtain rfl := List.append_cancel_right (hlines.symm.trans hlines')
  apply List.ext_getElem?
  intro j
  rw [← chunk_getElem? bytes, ← chunk_getElem? other]
  cases hrow : lines[j / kBytesPerLine]? with
  | some row =>
    have hread := (hshows _ row hrow).hex
    rw [(hshows' _ row hrow).hex] at hread
    rw [Option.some.inj hread]
  | none =>
    have hpast := List.getElem?_eq_none_iff.mp hrow
    have hfirst : bytes.length ≤ j := by
      simp only [kBytesPerLine] at hpast
      omega
    have hsecond : other.length ≤ j := by
      simp only [kBytesPerLine] at hpast
      omega
    rw [chunk_getElem?, chunk_getElem?, List.getElem?_eq_none hfirst, List.getElem?_eq_none hsecond]

/-- Below four gigabytes a dump shows every byte once, and only one byte string
has it. -/
theorem hexDump_faithful :
    (∀ bytes : Bytes, bytes.length < 2 ^ 32 → ShowsEveryByte bytes (hexDump bytes)) ∧
    ∀ bytes other : Bytes, bytes.length < 2 ^ 32 → other.length < 2 ^ 32 →
      hexDump bytes = hexDump other → bytes = other := by
  constructor
  · intro bytes hsmall
    exact hexDump_showsEveryByte hsmall
  · intro bytes other hsmall hsmall' hsame
    have hother := hexDump_showsEveryByte hsmall'
    rw [← hsame] at hother
    exact (hexDump_showsEveryByte hsmall).unique hother

end Srnp.Gui
