/-
  Settings files as they are written. Assignments stand on lines of their own, with blanks around
  key and value and with quotes or without, among lines that hold none and between line breaks of
  any kind. Reading the file gives back the assignments in their order, and so of each key the value
  that was assigned last (`read_text`). A carriage return before a line feed is the one place where
  the breaks are not read as they were written: the two are one break then, but what is lost is an
  empty line.
-/
import Timespan.Proofs.Settings.Load
import Timespan.Proofs.Text.Lines

namespace Timespan.Assignments

open Timespan.Text

/-! ## Assignments as they are written -/

def isQuote (c : Char) : Bool := c = '\x27' || c = '"'

/-- The blanks that may stand around keys and values. -/
structure Padding (cs : List Char) : Prop where
  blank : ∀ c ∈ cs, isBlank c = true
  oneLine : OneLine cs

/-- What can be written as a key. -/
structure IsKey (cs : List Char) : Prop where
  ne_nil : cs ≠ []
  no_equals : '=' ∉ cs
  no_hash : cs.head? ≠ some '#'
  oneLine : OneLine cs
  ends : BareEnds isBlank cs

/-- What can be written as a value. -/
structure IsValue (cs : List Char) : Prop where
  oneLine : OneLine cs
  ends : BareEnds isQuote cs

instance (cs : List Char) : Decidable (IsKey cs) :=
  decidable_of_iff (cs ≠ [] ∧ '=' ∉ cs ∧ cs.head? ≠ some '#' ∧ OneLine cs ∧ BareEnds isBlank cs)
    ⟨fun ⟨hne, hequals, hhash, hline, hends⟩ => ⟨hne, hequals, hhash, hline, hends⟩,
      fun h => ⟨h.ne_nil, h.no_equals, h.no_hash, h.oneLine, h.ends⟩⟩

instance (cs : List Char) : Decidable (IsValue cs) :=
  decidable_of_iff (OneLine cs ∧ BareEnds isQuote cs)
    ⟨fun ⟨hline, hends⟩ => ⟨hline, hends⟩, fun h => ⟨h.oneLine, h.ends⟩⟩

/-- The quotes around a value. -/
inductive Quoting where
  | bare | single | double
deriving DecidableEq

def Quoting.marks : Quoting → List Char
  | .bare => []
  | .single => ['\x27']
  | .double => ['"']

/-- An assignment as it stands on a line. A value without quotes has no blanks at its ends. -/
structure Entry where
  key : List Char
  value : List Char
  quoting : Quoting
  before : List Char
  afterKey : List Char
  beforeValue : List Char
  after : List Char
  isKey : IsKey key
  isValue : IsValue value
  bare : quoting = .bare → BareEnds isBlank value
  before_padding : Padding before
  afterKey_padding : Padding afterKey
  beforeValue_padding : Padding beforeValue
  after_padding : Padding after

namespace Entry

def quoted (e : Entry) : List Char := e.quoting.marks ++ (e.value ++ e.quoting.marks)

def text (e : Entry) : List Char :=
  e.before ++ (e.key ++ (e.afterKey ++ '=' :: (e.beforeValue ++ (e.quoted ++ e.after))))

def assignment (e : Entry) : String × String := (String.ofList e.key, String.ofList e.value)

/-- A key and a value in double quotes, without blanks. -/
def ofPair {key value : List Char} (hkey : IsKey key) (hvalue : IsValue value) : Entry where
  key := key
  value := value
  quoting := .double
  before := []
  afterKey := []
  beforeValue := []
  after := []
  isKey := hkey
  isValue := hvalue
  bare := nofun
  before_padding := ⟨nofun, nofun⟩
  afterKey_padding := ⟨nofun, nofun⟩
  beforeValue_padding := ⟨nofun, nofun⟩
  after_padding := ⟨nofun, nofun⟩

end Entry

/-- A line without an assignment: a blank one, a comment, one without an equals sign, or one without
    a key. -/
inductive Idle : List Char → Prop
  | blank {cs : List Char} (h : ∀ c ∈ cs, isBlank c = true) : Idle cs
  | comment {xs : List Char} (h : ∀ c ∈ xs, isBlank c = true) (cs : List Char) :
    Idle (xs ++ '#' :: cs)
  | noEquals {cs : List Char} (h : '=' ∉ cs) : Idle cs
  | noKey {xs : List Char} (h : ∀ c ∈ xs, isBlank c = true) (cs : List Char) :
    Idle (xs ++ '=' :: cs)

inductive Line where
  | entry (e : Entry)
  | idle (cs : List Char) (oneLine : OneLine cs) (idle : Idle cs)

def Line.text : Line → List Char
  | .entry e => e.text
  | .idle cs _ _ => cs

def Line.assignment? : Line → Option (String × String)
  | .entry e => some e.assignment
  | .idle _ _ _ => none

/-- What stands between two lines. -/
inductive Break where
  | crlf
  | char (c : Char) (h : isLineBreak c = true)

def Break.text : Break → List Char
  | .crlf => ['\r', '\n']
  | .char c _ => [c]

/-- A settings file: a line, and further lines behind breaks. -/
structure File where
  first : Line
  rest : List (Break × Line)

namespace File

def textFrom (l : Line) : List (Break × Line) → List Char
  | [] => l.text
  | (b, next) :: rest => l.text ++ (b.text ++ textFrom next rest)

def text (f : File) : List Char := textFrom f.first f.rest

/-- The assignments of a file, in order. -/
def assignments (f : File) : List (String × String) :=
  (f.first :: f.rest.map Prod.snd).filterMap Line.assignment?

end File

/-! ## Lines that are read -/

variable {cs xs left right line : List Char}

/-- A line is read at its first equals sign, unless it is a comment. -/
theorem ofLine?_of_trim (h : trim line = left ++ '=' :: right) (hhash : left.head? ≠ some '#')
    (hleft : '=' ∉ left) :
    ofLine? line = if trim left = [] then none
      else some (String.ofList (trim left), String.ofList (value right)) := by
  have hpass : ∀ c ∈ left, (c != '=') = true := fun c hc =>
    bne_iff_ne.mpr (ne_of_mem_of_not_mem hc hleft)
  have htake : (left ++ '=' :: right).takeWhile (· != '=') = left := by
    rw [List.takeWhile_append_of_pos hpass]
    simp
  have hdrop : (left ++ '=' :: right).dropWhile (· != '=') = '=' :: right := by
    rw [List.dropWhile_append_of_pos hpass]
    simp
  unfold ofLine?
  simp only [h, htake, hdrop]
  split
  · rename_i hcons
    cases left with
    | nil => exact absurd (List.cons.inj hcons).1 (by decide)
    | cons c left => exact absurd (congrArg some (List.cons.inj hcons).1) hhash
  · split
    · rename_i hnil
      rw [if_pos hnil]
    · rename_i hne
      rw [if_neg hne]

theorem ofLine?_idle (h : Idle cs) : ofLine? cs = none := by
  have hnone : ∀ {ds : List Char}, '=' ∉ trim ds → ofLine? ds = none := by
    intro ds hds
    have hdrop : (trim ds).dropWhile (· != '=') = [] :=
      List.dropWhile_eq_nil_iff.mpr fun c hc => bne_iff_ne.mpr (ne_of_mem_of_not_mem hc hds)
    unfold ofLine?
    simp only [hdrop]
    split <;> rfl
  cases h with
  | blank h =>
    apply hnone
    rw [trim_eq_nil_iff.mpr h]
    exact nofun
  | comment h rest =>
    unfold ofLine?
    rw [trim_append_cons h (by decide)]
    rfl
  | noEquals h => exact hnone fun hc => h ((trim_isInfix cs).subset hc)
  | noKey h rest =>
    have htrim := trim_append_cons h (c := '=') (by decide) rest
    have hhash : ([] : List Char).head? ≠ some '#' := nofun
    rw [ofLine?_of_trim htrim hhash nofun]
    rfl

namespace Entry

variable (e : Entry)

theorem quoted_bareEnds : BareEnds isBlank e.quoted := by
  unfold quoted
  cases hq : e.quoting with
  | bare => simpa [Quoting.marks] using e.bare hq
  | single => exact bareEnds_enclosed (by decide) e.value
  | double => exact bareEnds_enclosed (by decide) e.value

/-- The quotes are stripped, and nothing else. -/
theorem strip_quoted : strip '"' (strip '\x27' e.quoted) = e.value := by
  have hsingle : BareEnds (· == '\x27') e.value :=
    e.isValue.ends.mono fun c hc => by simp_all [isQuote]
  have hdouble : BareEnds (· == '"') e.value :=
    e.isValue.ends.mono fun c hc => by simp_all [isQuote]
  have hmarks : ∀ {q c : Char}, c ∈ [q] → (c == q) = true := by simp
  have hstrip : ∀ q cs, strip q cs = dropEnds (· == q) cs := fun _ _ => rfl
  rw [hstrip, hstrip]
  unfold quoted
  cases e.quoting with
  | bare =>
    simp only [Quoting.marks, List.nil_append, List.append_nil]
    rw [dropEnds_of_bareEnds hsingle, dropEnds_of_bareEnds hdouble]
  | single =>
    rw [Quoting.marks, dropEnds_append (fun _ => hmarks) (fun _ => hmarks) hsingle,
      dropEnds_of_bareEnds hdouble]
  | double =>
    have houter : BareEnds (· == '\x27') (['"'] ++ (e.value ++ ['"'])) :=
      bareEnds_enclosed (by decide) e.value
    rw [Quoting.marks, dropEnds_of_bareEnds houter,
      dropEnds_append (fun _ => hmarks) (fun _ => hmarks) hdouble]

theorem value_padded :
    Assignments.value (trimEnd (e.beforeValue ++ (e.quoted ++ e.after))) = e.value := by
  have htrim : trim (e.beforeValue ++ (e.quoted ++ e.after)) = e.quoted := by
    rw [trim_eq_dropEnds]
    exact dropEnds_append e.beforeValue_padding.blank e.after_padding.blank e.quoted_bareEnds
  rw [Assignments.value, trim_trimEnd, htrim, strip_quoted]

theorem ofLine?_text : ofLine? e.text = some e.assignment := by
  obtain ⟨k, ks, hkey⟩ := List.exists_cons_of_ne_nil e.isKey.ne_nil
  have hk : isBlank k = false := e.isKey.ends.1 k (by rw [hkey]; rfl)
  have htrim : trim e.text = (e.key ++ e.afterKey) ++
      '=' :: trimEnd (e.beforeValue ++ (e.quoted ++ e.after)) := by
    have hequals := trimEnd_append_cons (c := '=') (by decide) (ks ++ e.afterKey)
      (e.beforeValue ++ (e.quoted ++ e.after))
    rw [text, hkey, List.cons_append, trim_append_cons e.before_padding.blank hk,
      ← List.append_assoc, hequals]
    simp
  have hhash : (e.key ++ e.afterKey).head? ≠ some '#' := by
    have := e.isKey.no_hash
    rw [hkey] at this ⊢
    exact this
  have hequals : '=' ∉ e.key ++ e.afterKey := by
    rw [List.mem_append]
    rintro (hc | hc)
    · exact e.isKey.no_equals hc
    · exact absurd (e.afterKey_padding.blank _ hc) (by decide)
  have hleft : trim (e.key ++ e.afterKey) = e.key := by
    rw [trim_append_blanks e.afterKey_padding.blank, trim_eq_dropEnds,
      dropEnds_of_bareEnds e.isKey.ends]
  rw [ofLine?_of_trim htrim hhash hequals, hleft, if_neg e.isKey.ne_nil, value_padded]
  rfl

theorem text_oneLine : OneLine e.text := by
  have hmarks : OneLine e.quoting.marks := by
    cases e.quoting with
    | bare => exact nofun
    | single => exact .cons (by decide) nofun
    | double => exact .cons (by decide) nofun
  have hquoted : OneLine e.quoted := hmarks.append (e.isValue.oneLine.append hmarks)
  have hright : OneLine (e.beforeValue ++ (e.quoted ++ e.after)) :=
    e.beforeValue_padding.oneLine.append (hquoted.append e.after_padding.oneLine)
  exact e.before_padding.oneLine.append (e.isKey.oneLine.append
    (e.afterKey_padding.oneLine.append (.cons (by decide) hright)))

end Entry

theorem Line.ofLine?_text (l : Line) : ofLine? l.text = l.assignment? := by
  cases l with
  | entry e => exact e.ofLine?_text
  | idle cs _ h => exact ofLine?_idle h

theorem Line.text_oneLine (l : Line) : OneLine l.text := by
  cases l with
  | entry e => exact e.text_oneLine
  | idle cs h _ => exact h

/-! ## Files that are read -/

theorem ofLine?_nil : ofLine? [] = none := rfl

theorem exists_lines_text (b : Break) (cs : List Char) :
    ∃ more, lines (b.text ++ cs) = [] :: more ∧
      more.filterMap ofLine? = (lines cs).filterMap ofLine? := by
  cases b with
  | crlf => exact ⟨lines cs, rfl, rfl⟩
  | char c h => exact exists_lines_break ofLine?_nil h cs

theorem lines_textFrom (l : Line) (rest : List (Break × Line)) :
    (lines (File.textFrom l rest)).filterMap ofLine? =
      (l :: rest.map Prod.snd).filterMap Line.assignment? := by
  induction rest generalizing l with
  | nil =>
    rw [File.textFrom, List.map_nil, List.filterMap_cons, ← l.ofLine?_text]
    by_cases hnil : l.text = []
    · rw [hnil]
      rfl
    · rw [lines_of_oneLine l.text_oneLine hnil]
      rfl
  | cons p rest ih =>
    obtain ⟨b, next⟩ := p
    obtain ⟨more, hmore, hfound⟩ := exists_lines_text b (File.textFrom next rest)
    rw [File.textFrom, lines_append l.text_oneLine hmore, List.filterMap_cons, hfound, ih next,
      l.ofLine?_text]
    rfl

/-- Assignments that can be written at all can be written in a file, one on each line. -/
theorem exists_file {as : List (String × String)}
    (h : ∀ p ∈ as, IsKey p.1.toList ∧ IsValue p.2.toList) : ∃ f : File, f.assignments = as := by
  have hrest : ∃ rest : List (Break × Line),
      (rest.map Prod.snd).filterMap Line.assignment? = as := by
    induction as with
    | nil => exact ⟨[], rfl⟩
    | cons p as ih =>
      obtain ⟨⟨hkey, hvalue⟩, has⟩ := List.forall_mem_cons.mp h
      obtain ⟨rest, hrest⟩ := ih has
      have hentry : (Line.entry (.ofPair hkey hvalue)).assignment? = some p := by
        simp [Line.assignment?, Entry.assignment, Entry.ofPair]
      refine ⟨(.char '\n' rfl, .entry (.ofPair hkey hvalue)) :: rest, ?_⟩
      rw [List.map_cons, List.filterMap_cons_some hentry, hrest]
  obtain ⟨rest, hrest⟩ := hrest
  exact ⟨⟨.idle [] nofun (.blank nofun), rest⟩, hrest⟩

/-- A settings file is read as its assignments, so a key has the value of the last assignment to
    it and no value if there is none; and all assignments that can be written are those of some
    file. -/
theorem read_text (f : File) :
    read (String.ofList f.text) = f.assignments ∧
    (∀ key value, find? (read (String.ofList f.text)) key = some value ↔
      Last f.assignments key value) ∧
    (∀ key, find? (read (String.ofList f.text)) key = none ↔ ∀ p ∈ f.assignments, p.1 ≠ key) ∧
    ∀ as : List (String × String), (∀ p ∈ as, IsKey p.1.toList ∧ IsValue p.2.toList) →
      ∃ f : File, f.assignments = as := by
  have hread : read (String.ofList f.text) = f.assignments := by
    rw [read, String.toList_ofList]
    exact lines_textFrom f.first f.rest
  refine ⟨hread, fun key value => ?_, fun key => ?_, fun as h => exists_file h⟩
  · rw [hread, find?_eq_some_iff]
  · rw [hread, find?, List.lookup_eq_none_iff]
    simp only [List.mem_reverse, bne_iff_ne, ne_comm]

/-- Three assignments with equals signs, hashes, blanks and quotes in their values, two of them to
    one key. -/
theorem read_text_assigned_twice :
    ∃ f : File, f.assignments = [("A", "x=\"y\" "), ("B", ""), ("A", "#1")] ∧
      find? (read (String.ofList f.text)) "A" = some "#1" ∧
      find? (read (String.ofList f.text)) "C" = none := by
  obtain ⟨-, -, -, hall⟩ := read_text ⟨.idle [] nofun (.blank nofun), []⟩
  obtain ⟨f, hf⟩ := hall [("A", "x=\"y\" "), ("B", ""), ("A", "#1")] (by decide +kernel)
  obtain ⟨-, hlast, hnone, -⟩ := read_text f
  refine ⟨f, hf, (hlast _ _).mpr ?_, (hnone _).mpr ?_⟩
  · exact ⟨[("A", "x=\"y\" "), ("B", "")], [], hf, nofun⟩
  · rw [hf]
    decide

/-- The same three between a comment, a line without a key, and breaks and blanks of all kinds. -/
example : read " # A=0\r\n\u3000A = \x27x=\"y\" \x27\t\r\n=z\u2028B=\"\"\rA=#1\n" =
    [("A", "x=\"y\" "), ("B", ""), ("A", "#1")] := by
  decide +kernel

end Timespan.Assignments
