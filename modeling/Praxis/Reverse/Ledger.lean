import Praxis.Foundation.Hash
import Praxis.Foundation.Lines
import Praxis.Foundation.Sections
import Praxis.Foundation.Utf8

/-!
# The evidence ledger

The evidence of an analysis goes into a file of lines (`evidence_ledger/store.rs`), each of which is
a record in JSON with the SHA-256 of the line before it.  `append` reads the last line, opens the
file and writes the record and a newline.  The serializer writes as it goes, so that a record comes
in many pieces, each of which the system may take in parts.

A call is a list of sections: it reads the last line, opens the file, and makes each write.  The
bytes that are there never change, so that reading them back to the last newline is one section.
Between two sections other calls may take theirs, and a section may fail, or the process may stop
instead of taking it.

`ledger_chained` says when the ledger is a hash chain: if an append begins only when no other is
under way and the file does not end in the middle of a line.  Nothing keeps the callers to that.
-/

namespace Praxis.Reverse

open Foundation

variable {ρ : Type}

/-- A record; `append` copies what is in it and sets the hash. -/
structure EvidenceRecord (ρ : Type) where
  content : ρ
  prevHash : String
deriving DecidableEq

inductive ReverseError where
  | codec (error : Utf8.Utf8Error)
  | io
  | json

def newlineByte : UInt8 := 0x0A

def returnByte : UInt8 := 0x0D

/-- `serde_json` on records: the pieces in which one is written, and how a line is read.  Control
characters are escaped and the text is UTF-8. -/
structure Serde (ρ : Type) where
  toWriter : EvidenceRecord ρ → List Bytes
  fromSlice : Bytes → Option (EvidenceRecord ρ)
  line_ne_nil : ∀ record, (toWriter record).flatten ≠ []
  newline_notMem : ∀ record, newlineByte ∉ (toWriter record).flatten
  return_notMem : ∀ record, returnByte ∉ (toWriter record).flatten
  utf8 : ∀ record, ∃ text, Utf8.encode text = (toWriter record).flatten
  fromSlice_line : ∀ record, ∃ same, fromSlice (toWriter record).flatten = some same ∧
    same.prevHash = record.prevHash

/-- The record in JSON. -/
def Serde.line (serde : Serde ρ) (record : EvidenceRecord ρ) : Bytes :=
  (serde.toWriter record).flatten

/-! ## The last line -/

/-- `to_hex`. -/
def toHex (bytes : Bytes) : String :=
  let hex (n : Nat) : Char := "0123456789abcdef".toList.getD n '0'
  String.ofList (bytes.flatMap fun byte ↦ [hex (byte.toNat / 16), hex (byte.toNat % 16)])

/-- `sha256_hex` of one part. -/
def sha256Hex (part : Bytes) : String := toHex (sha256 part)

/-- The loop of `read_last_nonempty_line`, over the bytes from the end of the file. -/
def readBack (sawContent : Bool) (reversed : Bytes) : Bytes → Bytes
  | [] => reversed
  | value :: rest =>
    if value = newlineByte ∨ value = returnByte then
      if sawContent then reversed else readBack sawContent reversed rest
    else readBack true (reversed ++ [value]) rest

def readLastNonemptyLine (file : Bytes) : Except ReverseError Bytes :=
  let last := (readBack false [] file.reverse).reverse
  match Utf8.fromUtf8 last with
  | .ok _ => .ok last
  | .error error => .error (.codec error)

/-- `last_record_hash`; there is no file before the first append. -/
def lastRecordHash (file : Option Bytes) : Except ReverseError String :=
  match file with
  | none => .ok ""
  | some file =>
    match readLastNonemptyLine file with
    | .error error => .error error
    | .ok last => .ok (if last = [] then "" else sha256Hex last)

/-! ## Appends -/

/-- The file, and what the appends have returned. -/
structure Ledger (ρ : Type) where
  file : Option Bytes
  returns : List (Except ReverseError (EvidenceRecord ρ))

namespace Ledger

/-- Where an append is: what it does next, and what is left of the record to be written. -/
inductive Point (ρ : Type) where
  | readLast (record : EvidenceRecord ρ)
  | openFile (record : EvidenceRecord ρ)
  | write (record : EvidenceRecord ρ) (pieces : List Bytes)
  | writeNewline (record : EvidenceRecord ρ)

/-- A call of the system succeeds (a write takes some of the bytes), or fails, or the process stops
before it. -/
inductive Answer where
  | proceeds (taken : Nat)
  | fails
  | stops

/-- The error of a section that fails. -/
def Point.error : Point ρ → ReverseError
  | .write _ _ => .json
  | _ => .io

/-- What a write leaves. -/
def written (taken : Nat) : List Bytes → List Bytes
  | [] => []
  | piece :: pieces => if taken < piece.length then piece.drop taken :: pieces else pieces

def writing (record : EvidenceRecord ρ) (pieces : List Bytes) : Point ρ :=
  if pieces = [] then .writeNewline record else .write record pieces

def extend (s : Ledger ρ) (bytes : Bytes) : Ledger ρ :=
  { s with file := some (s.file.getD [] ++ bytes) }

def returned (s : Ledger ρ) (result : Except ReverseError (EvidenceRecord ρ)) : Ledger ρ :=
  { s with returns := s.returns ++ [result] }

/-- The next section of an append. -/
def act (serde : Serde ρ) (point : Point ρ) (answer : Answer) (s : Ledger ρ) :
    Ledger ρ × Option (Point ρ) :=
  match answer with
  | .stops => (s, none)
  | .fails => (s.returned (.error point.error), none)
  | .proceeds taken =>
    match point with
    | .readLast record =>
      match lastRecordHash s.file with
      | .error error => (s.returned (.error error), none)
      | .ok prevHash => (s, some (.openFile { record with prevHash }))
    | .openFile record => (s.extend [], some (writing record (serde.toWriter record)))
    | .write record pieces =>
      (s.extend ((pieces.headD []).take taken), some (writing record (written taken pieces)))
    | .writeNewline record => ((s.extend [newlineByte]).returned (.ok record), none)

/-- A write takes a byte at least. -/
def enabled (point : Point ρ) (answer : Answer) (_ : Ledger ρ) : Prop :=
  match point, answer with
  | .write _ _, .proceeds taken => 0 < taken
  | _, _ => True

/-- An append begins with reading the last line. -/
def Point.starts : Point ρ → Bool
  | .readLast _ => true
  | _ => false

/-! ## Chains -/

/-- Every line is a record with the hash of the line before it. -/
def Linked (serde : Serde ρ) : Option Bytes → List Bytes → Prop
  | _, [] => True
  | prev, line :: rest =>
    (∃ record, serde.fromSlice line = some record ∧
      record.prevHash = (prev.map sha256Hex).getD "") ∧ Linked serde (some line) rest

theorem linked_concat {serde : Serde ρ} {prev : Option Bytes} {lines : List Bytes}
    {record : EvidenceRecord ρ} (h : Linked serde prev lines)
    (hrecord : record.prevHash = ((lines.getLast?.or prev).map sha256Hex).getD "") :
    Linked serde prev (lines ++ [serde.line record]) := by
  induction lines generalizing prev with
  | nil =>
    obtain ⟨same, hsame, hhash⟩ := serde.fromSlice_line record
    exact ⟨⟨same, hsame, hhash.trans hrecord⟩, trivial⟩
  | cons line lines ih =>
    refine ⟨h.1, ih h.2 ?_⟩
    rw [hrecord, List.getLast?_cons]
    cases lines.getLast? <;> rfl

/-- The records that appends have returned. -/
def records (s : Ledger ρ) : List (EvidenceRecord ρ) := s.returns.filterMap Except.toOption

/-- The complete lines of the file. -/
def lines (s : Ledger ρ) : List Bytes := endedLines newlineByte [] (s.file.getD [])

variable {serde : Serde ρ} {s : Ledger ρ}

/-! ## Reading back -/

theorem readBack_append {last rest reversed : Bytes} (hnewline : newlineByte ∉ last)
    (hreturn : returnByte ∉ last) (hne : last ≠ []) {saw : Bool} :
    readBack saw reversed (last ++ rest) = readBack true (reversed ++ last) rest := by
  induction last generalizing saw reversed with
  | nil => exact absurd rfl hne
  | cons value last ih =>
    have hvalue : ¬ (value = newlineByte ∨ value = returnByte) := by
      rintro (rfl | rfl)
      · exact hnewline List.mem_cons_self
      · exact hreturn List.mem_cons_self
    rw [List.cons_append, readBack, if_neg hvalue]
    cases last with
    | nil => rfl
    | cons next last =>
      rw [ih (fun hmem ↦ hnewline (List.mem_cons_of_mem _ hmem))
        (fun hmem ↦ hreturn (List.mem_cons_of_mem _ hmem)) (List.cons_ne_nil _ _),
        List.append_assoc]
      rfl

/-- The lines in the file. -/
def block (lines : List Bytes) : Bytes := lines.flatMap (· ++ [newlineByte])

/-- The hash that belongs into the record behind the lines. -/
def hashBehind (lines : List Bytes) : String := (lines.getLast?.map sha256Hex).getD ""

theorem block_concat (lines : List Bytes) (line : Bytes) :
    block (lines ++ [line]) = block lines ++ line ++ [newlineByte] := by
  rw [block, List.flatMap_append, List.flatMap_singleton, ← List.append_assoc]
  rfl

/-- The last line is read, whatever is before it. -/
theorem readLastNonemptyLine_line (lines : List Bytes) (record : EvidenceRecord ρ) :
    readLastNonemptyLine (block lines ++ serde.line record ++ [newlineByte]) =
      .ok (serde.line record) := by
  have hnewline : newlineByte ∉ (serde.line record).reverse :=
    fun hmem ↦ serde.newline_notMem record (List.mem_reverse.mp hmem)
  have hreturn : returnByte ∉ (serde.line record).reverse :=
    fun hmem ↦ serde.return_notMem record (List.mem_reverse.mp hmem)
  have hne : (serde.line record).reverse ≠ [] :=
    fun hnil ↦ serde.line_ne_nil record (List.reverse_eq_nil_iff.mp hnil)
  have hback : readBack false [] (block lines ++ serde.line record ++ [newlineByte]).reverse =
      (serde.line record).reverse := by
    rw [List.reverse_append, List.reverse_append, List.reverse_singleton, List.singleton_append,
      readBack, if_pos (.inl rfl), if_neg Bool.false_ne_true,
      readBack_append hnewline hreturn hne, List.nil_append]
    rcases List.eq_nil_or_concat' lines with rfl | ⟨front, last, rfl⟩
    · rfl
    · rw [block_concat, List.reverse_append, List.reverse_singleton, List.singleton_append,
        readBack, if_pos (.inl rfl), if_pos rfl]
  obtain ⟨text, htext⟩ := serde.utf8 record
  rw [readLastNonemptyLine, hback, List.reverse_reverse, Serde.line, ← htext,
    Utf8.fromUtf8_encode]

theorem lastRecordHash_block {file : Option Bytes} {records : List (EvidenceRecord ρ)}
    (h : file.getD [] = block (records.map serde.line)) :
    lastRecordHash file = .ok (hashBehind (records.map serde.line)) := by
  cases file with
  | none =>
    rcases List.eq_nil_or_concat' records with rfl | ⟨front, last, rfl⟩
    · rfl
    · rw [List.map_append, List.map_singleton, block_concat] at h
      exact absurd h.symm (List.append_ne_nil_of_right_ne_nil _ (List.cons_ne_nil _ _))
  | some file =>
    obtain rfl : file = block (records.map serde.line) := h
    rw [lastRecordHash]
    rcases List.eq_nil_or_concat' records with rfl | ⟨front, last, rfl⟩
    · have hempty : readLastNonemptyLine (block (([] : List (EvidenceRecord ρ)).map serde.line)) =
          .ok [] := by
        have hback : (readBack false [] (block (([] : List (EvidenceRecord ρ)).map
            serde.line)).reverse).reverse = Utf8.encode [] := rfl
        rw [readLastNonemptyLine, hback, Utf8.fromUtf8_encode]
        rfl
      rw [hempty]
      rfl
    · have hne : serde.line last ≠ [] := serde.line_ne_nil last
      rw [List.map_append, List.map_singleton, block_concat, readLastNonemptyLine_line]
      dsimp only
      rw [if_neg hne, hashBehind, List.getLast?_concat]
      rfl

/-! ## One append after another -/

/-- The file has the records that were returned, and the beginning of a line at most. -/
structure Chained (serde : Serde ρ) (s : Ledger ρ) : Prop where
  file : ∃ tail, s.file.getD [] = block (s.records.map serde.line) ++ tail ∧ newlineByte ∉ tail
  linked : Linked serde none (s.records.map serde.line)

/-- The file does not end in the middle of a line. -/
def Ended (s : Ledger ρ) : Prop :=
  s.file.getD [] = [] ∨ (s.file.getD []).getLast? = some newlineByte

/-- What an append knows that is alone. -/
def Own (serde : Serde ρ) (s : Ledger ρ) : Point ρ → Prop
  | .readLast _ => s.file.getD [] = block (s.records.map serde.line)
  | .openFile record =>
    s.file.getD [] = block (s.records.map serde.line) ∧
      record.prevHash = hashBehind (s.records.map serde.line)
  | .write record pieces =>
    (∃ front, s.file.getD [] = block (s.records.map serde.line) ++ front ∧
      front ++ pieces.flatten = serde.line record) ∧
      record.prevHash = hashBehind (s.records.map serde.line)
  | .writeNewline record =>
    s.file.getD [] = block (s.records.map serde.line) ++ serde.line record ∧
      record.prevHash = hashBehind (s.records.map serde.line)

theorem records_extend (bytes : Bytes) : (s.extend bytes).records = s.records := rfl

theorem file_extend (bytes : Bytes) : (s.extend bytes).file.getD [] = s.file.getD [] ++ bytes :=
  rfl

theorem records_returned_error (error : ReverseError) :
    (s.returned (.error error)).records = s.records := by
  rw [records, returned, List.filterMap_append]
  exact List.append_nil _

theorem records_returned_ok (record : EvidenceRecord ρ) :
    (s.returned (.ok record)).records = s.records ++ [record] := by
  rw [records, returned, List.filterMap_append]
  rfl

theorem Chained.returned_error (h : Chained serde s) (error : ReverseError) :
    Chained serde (s.returned (.error error)) :=
  ⟨by rw [records_returned_error]; exact h.file, by rw [records_returned_error]; exact h.linked⟩

/-- The lines of the file are those of the records. -/
theorem Chained.lines (h : Chained serde s) : s.lines = s.records.map serde.line := by
  obtain ⟨tail, hfile, htail⟩ := h.file
  rw [Ledger.lines, hfile, block]
  refine endedLines_flatMap (fun line hmem ↦ ?_) htail
  obtain ⟨record, -, rfl⟩ := List.mem_map.mp hmem
  exact serde.newline_notMem record

/-- Nothing is behind the last line if the file ends with it. -/
theorem Chained.file_of_ended (h : Chained serde s) (hended : s.Ended) :
    s.file.getD [] = block (s.records.map serde.line) := by
  obtain ⟨tail, hfile, htail⟩ := h.file
  rcases List.eq_nil_or_concat' tail with rfl | ⟨front, last, rfl⟩
  · rw [hfile, List.append_nil]
  · rw [Ended, hfile, ← List.append_assoc, List.getLast?_concat] at hended
    rcases hended with hnil | hlast
    · exact absurd hnil (List.append_ne_nil_of_right_ne_nil _ (List.cons_ne_nil _ _))
    · obtain rfl := Option.some.inj hlast
      exact absurd (List.mem_append_right _ List.mem_cons_self) htail

theorem own_writing {record : EvidenceRecord ρ} {pieces : List Bytes} {front : Bytes}
    (hfile : s.file.getD [] = block (s.records.map serde.line) ++ front)
    (hline : front ++ pieces.flatten = serde.line record)
    (hhash : record.prevHash = hashBehind (s.records.map serde.line)) :
    Own serde s (writing record pieces) := by
  unfold writing
  split
  next hnil =>
    rw [hnil, List.flatten_nil, List.append_nil] at hline
    exact ⟨hline ▸ hfile, hhash⟩
  next => exact ⟨⟨front, hfile, hline⟩, hhash⟩

/-- A write takes from the front of what is left. -/
theorem take_written (taken : Nat) (pieces : List Bytes) :
    (pieces.headD []).take taken ++ (written taken pieces).flatten = pieces.flatten := by
  cases pieces with
  | nil => rw [List.headD_nil, List.take_nil, written, List.nil_append]
  | cons piece pieces =>
    rw [written, List.headD_cons]
    split
    next => rw [List.flatten_cons, ← List.append_assoc, List.take_append_drop, List.flatten_cons]
    next hall => rw [List.take_of_length_le (Nat.le_of_not_lt hall), List.flatten_cons]

theorem chained_of_front {record : EvidenceRecord ρ} {front rest : Bytes}
    (hlinked : Linked serde none (s.records.map serde.line))
    (hfile : s.file.getD [] = block (s.records.map serde.line) ++ front)
    (hline : front ++ rest = serde.line record) : Chained serde s := by
  refine ⟨⟨front, hfile, fun hmem ↦ serde.newline_notMem record ?_⟩, hlinked⟩
  change newlineByte ∈ serde.line record
  rw [← hline]
  exact List.mem_append_left _ hmem

theorem Chained.act {point : Point ρ} {answer : Answer} (h : Chained serde s)
    (hown : Own serde s point) : Chained serde (act serde point answer s).1 ∧
      ∀ next, (act serde point answer s).2 = some next →
        Own serde (act serde point answer s).1 next := by
  cases answer with
  | stops => exact ⟨h, nofun⟩
  | fails => exact ⟨h.returned_error _, nofun⟩
  | proceeds taken =>
    cases point with
    | readLast record =>
      have hread := lastRecordHash_block hown
      rw [Ledger.act, hread]
      refine ⟨h, fun next hnext ↦ ?_⟩
      obtain rfl := Option.some.inj hnext
      exact ⟨hown, rfl⟩
    | openFile record =>
      obtain ⟨hfile, hhash⟩ := hown
      have hfile : (s.extend []).file.getD [] =
          block ((s.extend []).records.map serde.line) ++ [] := by
        rw [file_extend, hfile, records_extend]
      refine ⟨⟨⟨[], hfile, List.not_mem_nil⟩, h.linked⟩, fun next hnext ↦ ?_⟩
      obtain rfl := Option.some.inj hnext
      exact own_writing hfile rfl hhash
    | write record pieces =>
      obtain ⟨⟨front, hfile, hline⟩, hhash⟩ := hown
      have hfile : (s.extend ((pieces.headD []).take taken)).file.getD [] =
          block (s.records.map serde.line) ++ (front ++ (pieces.headD []).take taken) := by
        rw [file_extend, hfile, List.append_assoc]
      have hline : front ++ (pieces.headD []).take taken ++ (written taken pieces).flatten =
          serde.line record := by
        rw [List.append_assoc, take_written, hline]
      refine ⟨chained_of_front h.linked hfile hline, fun next hnext ↦ ?_⟩
      obtain rfl := Option.some.inj hnext
      exact own_writing hfile hline hhash
    | writeNewline record =>
      obtain ⟨hfile, hhash⟩ := hown
      have hrecords : ((s.extend [newlineByte]).returned (.ok record)).records =
          s.records ++ [record] := records_returned_ok record
      refine ⟨⟨⟨[], ?_, List.not_mem_nil⟩, ?_⟩, nofun⟩
      · change (s.extend [newlineByte]).file.getD [] =
          block (((s.extend [newlineByte]).returned (.ok record)).records.map serde.line) ++ []
        rw [hrecords, List.map_append, List.map_singleton, block_concat, List.append_nil,
          file_extend, hfile]
      · change Linked serde none
          (((s.extend [newlineByte]).returned (.ok record)).records.map serde.line)
        rw [hrecords, List.map_append]
        refine linked_concat h.linked ?_
        rw [Option.or_none]
        exact hhash

/-! ## Whole runs -/

/-- Before the first append. -/
def empty : Ledger ρ := ⟨none, []⟩

def start : World (Ledger ρ) (Point ρ) := ⟨empty, []⟩

/-- Every interleaving of appends. -/
def Interleaved (serde : Serde ρ) : World (Ledger ρ) (Point ρ) → Move (Point ρ) Answer →
    World (Ledger ρ) (Point ρ) → Prop :=
  Moves (fun point ↦ point.starts = true) (act serde) enabled

/-- Appends begin only when no other is under way and the file does not end in a line. -/
def Serially (serde : Serde ρ) : World (Ledger ρ) (Point ρ) → Move (Point ρ) Answer →
    World (Ledger ρ) (Point ρ) → Prop :=
  SerialMoves Ended (fun point ↦ point.starts = true) (act serde) enabled

variable {w : World (Ledger ρ) (Point ρ)} {moves : List (Move (Point ρ) Answer)}

theorem chained_start : World.Alone (Chained serde) (Own serde) start :=
  ⟨⟨⟨[], rfl, List.not_mem_nil⟩, trivial⟩, nofun⟩

theorem chained_of_run (hrun : Steps (Serially serde) start moves w) :
    w.Alone (Chained serde) (Own serde) := by
  refine hrun.invariant (P := World.Alone (Chained serde) (Own serde))
    (fun w move t h hmove ↦ ?_) chained_start
  refine h.step (fun s point hchained hended hstarts ↦ ?_)
    (fun s point answer _ hchained hown ↦ hchained.act hown) hmove
  cases point with
  | readLast record => exact hchained.file_of_ended hended
  | _ => cases hstarts

/-! ## A serializer

Records with nothing but the hash, whose letters are written by their numbers. -/

def unary (c : Char) : List Char := List.replicate c.toNat '0' ++ ['1']

def ofUnary (n : Nat) : List Char → List Char
  | [] => []
  | digit :: rest =>
    if digit = '0' then ofUnary (n + 1) rest else Char.ofNat n :: ofUnary 0 rest

theorem ofUnary_replicate (n k : Nat) (rest : List Char) :
    ofUnary n (List.replicate k '0' ++ '1' :: rest) = Char.ofNat (n + k) :: ofUnary 0 rest := by
  induction k generalizing n with
  | zero => rfl
  | succ k ih =>
    rw [List.replicate_succ, List.cons_append, ofUnary, if_pos rfl, ih, Nat.add_assoc,
      Nat.add_comm 1]

theorem ofUnary_flatMap (text : List Char) : ofUnary 0 (text.flatMap unary) = text := by
  induction text with
  | nil => rfl
  | cons c text ih =>
    rw [List.flatMap_cons, unary, List.append_assoc, List.singleton_append, ofUnary_replicate, ih,
      Nat.zero_add, Char.ofNat_toNat]

/-- The letters of a record. -/
def plainText (record : EvidenceRecord Unit) : List Char :=
  record.prevHash.toList.flatMap unary ++ ['.']

/-- A text that ends with its only dot. -/
def plainRecord (text : List Char) : Option (EvidenceRecord Unit) :=
  if text.getLast? = some '.' ∧ '.' ∉ text.dropLast then
    some ⟨(), String.ofList (ofUnary 0 text.dropLast)⟩
  else none

theorem mem_unary {c letter : Char} (h : letter ∈ unary c) : letter = '0' ∨ letter = '1' := by
  rcases List.mem_append.mp h with h | h
  · exact .inl (List.eq_of_mem_replicate h)
  · exact .inr (List.mem_singleton.mp h)

theorem dot_notMem (text : List Char) : '.' ∉ text.flatMap unary := by
  intro hmem
  obtain ⟨c, -, hc⟩ := List.mem_flatMap.mp hmem
  rcases mem_unary hc with h | h <;> cases h

theorem plainRecord_plainText (record : EvidenceRecord Unit) :
    plainRecord (plainText record) = some record := by
  rw [plainRecord, plainText, List.getLast?_concat, List.dropLast_concat,
    if_pos ⟨rfl, dot_notMem _⟩, ofUnary_flatMap, String.ofList_toList]

/-- Two records in one line are none. -/
theorem plainRecord_append (a b : EvidenceRecord Unit) :
    plainRecord (plainText a ++ plainText b) = none := by
  refine if_neg fun h ↦ h.2 ?_
  rw [plainText, plainText, ← List.append_assoc, List.dropLast_concat]
  exact List.mem_append_left _ (List.mem_append_right _ List.mem_cons_self)

theorem byte_notMem_plainText (record : EvidenceRecord Unit) {byte : UInt8}
    (hbyte : byte ≠ 0x30 ∧ byte ≠ 0x31 ∧ byte ≠ 0x2E) :
    byte ∉ Utf8.encode (plainText record) := by
  intro hmem
  obtain ⟨letter, hletter, hmem⟩ := List.mem_flatMap.mp hmem
  have hone : letter = '0' ∨ letter = '1' ∨ letter = '.' := by
    rcases List.mem_append.mp hletter with h | h
    · obtain ⟨c, -, hc⟩ := List.mem_flatMap.mp h
      exact (mem_unary hc).imp id .inl
    · exact .inr (.inr (List.mem_singleton.mp h))
  rcases hone with rfl | rfl | rfl
  · exact hbyte.1 (List.mem_singleton.mp hmem)
  · exact hbyte.2.1 (List.mem_singleton.mp hmem)
  · exact hbyte.2.2 (List.mem_singleton.mp hmem)

def plainSerde : Serde Unit where
  toWriter record := [Utf8.encode (plainText record)]
  fromSlice bytes :=
    match Utf8.fromUtf8 bytes with
    | .ok text => plainRecord text
    | .error _ => none
  line_ne_nil record := by
    rw [List.flatten_singleton, plainText, Utf8.encode_append]
    exact List.append_ne_nil_of_right_ne_nil _ (List.cons_ne_nil _ _)
  newline_notMem record := by
    rw [List.flatten_singleton]
    exact byte_notMem_plainText record (by decide)
  return_notMem record := by
    rw [List.flatten_singleton]
    exact byte_notMem_plainText record (by decide)
  utf8 record := ⟨plainText record, List.flatten_singleton.symm⟩
  fromSlice_line record := by
    refine ⟨record, ?_, rfl⟩
    rw [List.flatten_singleton, Utf8.fromUtf8_encode]
    exact plainRecord_plainText record

theorem plainSerde_line (record : EvidenceRecord Unit) :
    plainSerde.line record = Utf8.encode (plainText record) := List.flatten_singleton

/-- The record whose hash is to be set. -/
def plain : EvidenceRecord Unit := ⟨(), ""⟩

/-- The sections of an append that takes the hash. -/
def appendMoves (call : Nat) (hash : String) : List (Move (Point Unit) Answer) :=
  [.advance call (.proceeds 0), .advance call (.proceeds 0),
    .advance call (.proceeds (plainSerde.line ⟨(), hash⟩).length), .advance call (.proceeds 1)]

/-- The file behind an append, and what is returned. -/
def appended (s : Ledger Unit) (hash : String) : Ledger Unit :=
  ((s.extend (plainSerde.line ⟨(), hash⟩)).extend [newlineByte]).returned (.ok ⟨(), hash⟩)

theorem extend_nil (bytes : Bytes) : (s.extend []).extend bytes = s.extend bytes := by
  rw [extend, file_extend, List.append_nil]
  rfl

theorem act_write_plain (s : Ledger Unit) (hash : String) :
    act plainSerde (writing ⟨(), hash⟩ (plainSerde.toWriter ⟨(), hash⟩))
        (.proceeds (plainSerde.line ⟨(), hash⟩).length) (s.extend []) =
      (s.extend (plainSerde.line ⟨(), hash⟩), some (.writeNewline ⟨(), hash⟩)) := by
  change ((s.extend []).extend ((Utf8.encode (plainText ⟨(), hash⟩)).take _),
    some (writing _ (written _ [Utf8.encode (plainText ⟨(), hash⟩)]))) = _
  rw [plainSerde_line, List.take_length, written, if_neg (Nat.lt_irrefl _), extend_nil]
  rfl

/-- An append that nothing disturbs comes to its end. -/
theorem append_proceeds {s : Ledger Unit} (calls : List (Option (Point Unit))) {hash : String}
    (hread : lastRecordHash s.file = .ok hash) :
    Steps (Interleaved plainSerde) ⟨s, calls ++ [some (.readLast plain)]⟩
      (appendMoves calls.length hash) ⟨s.appended hash, calls ++ [none]⟩ := by
  have hreads : act plainSerde (.readLast plain) (.proceeds 0) s =
      (s, some (.openFile ⟨(), hash⟩)) := by
    rw [act, hread]
  refine .cons (moves_last hreads trivial) (.cons (moves_last rfl trivial)
    (.cons (moves_last (act_write_plain s hash) ?_) (.cons (moves_last rfl trivial) (.nil _))))
  exact List.length_pos_iff.mpr (plainSerde.line_ne_nil _)

/-! ## When the ledger is a chain -/

/-- The hash of the line of the first record. -/
def firstHash : String := sha256Hex (plainSerde.line plain)

/-- Two appends, one after the other. -/
def twoAppends : List (Move (Point Unit) Answer) :=
  .enter (.readLast plain) :: (appendMoves 0 "" ++ .enter (.readLast plain) ::
    appendMoves 1 firstHash)

theorem append_serially {s : Ledger Unit} (calls : List (Option (Point Unit))) {hash : String}
    (hread : lastRecordHash s.file = .ok hash) :
    Steps (Serially plainSerde) ⟨s, calls ++ [some (.readLast plain)]⟩
      (appendMoves calls.length hash) ⟨s.appended hash, calls ++ [none]⟩ := by
  refine (append_proceeds calls hread).mono fun w move hmem t hmove ↦ ⟨hmove, fun point henter ↦ ?_⟩
  rw [henter, appendMoves] at hmem
  simp only [List.mem_cons, reduceCtorEq, List.not_mem_nil, or_self] at hmem

theorem twoAppends_run : Steps (Serially plainSerde) start twoAppends
    ⟨(empty.appended "").appended firstHash, [none, none]⟩ := by
  have hidle : (⟨empty.appended "", [none]⟩ : World (Ledger Unit) (Point Unit)).Idle :=
    fun call hmem ↦ List.mem_singleton.mp hmem
  have hfile : (empty.appended "").file.getD [] = block ([plain].map plainSerde.line) := rfl
  have hread : lastRecordHash (empty.appended "").file = .ok firstHash := by
    rw [lastRecordHash_block hfile, hashBehind, List.map_singleton, List.getLast?_singleton,
      Option.map_some, Option.getD_some, firstHash]
  refine .cons ⟨⟨rfl, rfl⟩, fun _ _ ↦ ⟨nofun, .inl rfl⟩⟩ ?_
  refine steps_append_iff.mpr ⟨_, append_serially [] rfl, ?_⟩
  exact .cons ⟨⟨rfl, rfl⟩, fun _ _ ↦ ⟨hidle, .inr rfl⟩⟩ (append_serially [none] hread)

/-- Two appends that both find no line. -/
def forkMoves : List (Move (Point Unit) Answer) :=
  [.enter (.readLast plain), .enter (.readLast plain), .advance 0 (.proceeds 0),
    .advance 1 (.proceeds 0), .advance 0 (.proceeds 0), .advance 0 (.proceeds 1),
    .advance 0 (.proceeds 1), .advance 1 (.proceeds 0), .advance 1 (.proceeds 1),
    .advance 1 (.proceeds 1)]

theorem forkMoves_run : ∃ w, Steps (Interleaved plainSerde) start forkMoves w ∧
    w.calls = [none, none] ∧ w.shared.records = [plain, plain] ∧
    w.shared.lines = [plainSerde.line plain, plainSerde.line plain] :=
  ⟨_, .cons ⟨rfl, rfl⟩ (.cons ⟨rfl, rfl⟩ (.cons ⟨_, rfl, trivial, rfl⟩
    (.cons ⟨_, rfl, trivial, rfl⟩ (.cons ⟨_, rfl, trivial, rfl⟩ (.cons ⟨_, rfl, Nat.one_pos, rfl⟩
    (.cons ⟨_, rfl, trivial, rfl⟩ (.cons ⟨_, rfl, trivial, rfl⟩ (.cons ⟨_, rfl, Nat.one_pos, rfl⟩
    (.cons ⟨_, rfl, trivial, rfl⟩ (.nil _)))))))))), rfl, rfl, rfl⟩

theorem sha256Hex_ne (part : Bytes) : sha256Hex part ≠ "" := by
  intro h
  have hlength := congrArg (fun text ↦ text.toList.length) h
  dsimp only [sha256Hex, toHex] at hlength
  rw [String.toList_ofList, List.length_flatMap] at hlength
  simp at hlength

/-- The second of the two has no hash. -/
theorem not_linked_fork :
    ¬ Linked plainSerde none [plainSerde.line plain, plainSerde.line plain] := by
  rintro ⟨-, ⟨record, hrecord, hhash⟩, -⟩
  have hplain : plainSerde.fromSlice (plainSerde.line plain) = some plain := by
    rw [plainSerde_line]
    change (match Utf8.fromUtf8 (Utf8.encode (plainText plain)) with
      | .ok text => plainRecord text
      | .error _ => none) = some plain
    rw [Utf8.fromUtf8_encode]
    exact plainRecord_plainText plain
  obtain rfl := Option.some.inj (hplain.symm.trans hrecord)
  exact sha256Hex_ne _ hhash.symm

/-- The process stops between a record and its newline; then there is another append. -/
def stopMoves : List (Move (Point Unit) Answer) :=
  [.enter (.readLast plain), .advance 0 (.proceeds 0), .advance 0 (.proceeds 0),
    .advance 0 (.proceeds 1), .advance 0 .stops, .enter (.readLast plain)] ++
    appendMoves 1 firstHash

/-- What the first append leaves. -/
def stopped : Ledger Unit := empty.extend (plainSerde.line plain)

theorem stopMoves_run : Steps (Interleaved plainSerde) start stopMoves
    ⟨stopped.appended firstHash, [none, none]⟩ := by
  have hread : lastRecordHash stopped.file = .ok firstHash := by
    have hback : (readBack false [] (plainSerde.line plain).reverse).reverse =
      Utf8.encode (plainText plain) := rfl
    change lastRecordHash (some (plainSerde.line plain)) = _
    rw [lastRecordHash, readLastNonemptyLine, hback, Utf8.fromUtf8_encode]
    rfl
  refine steps_append_iff.mpr ⟨_, .cons ⟨rfl, rfl⟩ (.cons ⟨_, rfl, trivial, rfl⟩
    (.cons ⟨_, rfl, trivial, rfl⟩ (.cons ⟨_, rfl, Nat.one_pos, rfl⟩ (.cons ⟨_, rfl, trivial, rfl⟩
    (.cons ⟨rfl, rfl⟩ (.nil _)))))), ?_⟩
  exact append_proceeds [none] hread

theorem stopped_lines : (stopped.appended firstHash).lines =
    [plainSerde.line plain ++ plainSerde.line ⟨(), firstHash⟩] := by
  have hfile : (stopped.appended firstHash).file.getD [] =
      [plainSerde.line plain ++ plainSerde.line ⟨(), firstHash⟩].flatMap (· ++ [newlineByte]) ++
        [] := by
    rw [List.flatMap_singleton, List.append_nil]
    rfl
  rw [lines, hfile]
  refine endedLines_flatMap (fun line hmem ↦ ?_) List.not_mem_nil
  rw [List.mem_singleton.mp hmem, List.mem_append, not_or]
  exact ⟨plainSerde.newline_notMem _, plainSerde.newline_notMem _⟩

/-- Two records in a line cannot be read. -/
theorem fromSlice_glued (a b : EvidenceRecord Unit) :
    plainSerde.fromSlice (plainSerde.line a ++ plainSerde.line b) = none := by
  rw [plainSerde_line, plainSerde_line, ← Utf8.encode_append]
  change (match Utf8.fromUtf8 (Utf8.encode (plainText a ++ plainText b)) with
    | .ok text => plainRecord text
    | .error _ => none) = none
  rw [Utf8.fromUtf8_encode]
  exact plainRecord_append a b

end Ledger

end Praxis.Reverse
