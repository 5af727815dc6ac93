import SearchPolling.Metrics.Export

/-!
# Reading an exported text

An exported text is read line by line.  A line that begins with `#` is a comment; any other is
the sample of a metric, with labels in braces if it has any, and a number.  Each character
between the braces is read by the function of the place at which it stands.

Whatever stands in the values of labels and in comments, the lines that were written are the
lines that are read (`lines?_join`).  All it takes is that names are names: a name of a metric
has no brace or blank in it, and that of a label no equals sign.
-/

namespace SearchPolling
namespace Metrics
namespace Exposition

/-- A sample, as it is written. -/
structure Row where
  name : String
  labels : List (String × String)
  value : String
  deriving DecidableEq, Repr

inductive Line where
  /-- What follows the sign of a comment. -/
  | comment (text : String)
  | sample (row : Row)
  deriving DecidableEq, Repr

def Line.row? : Line → Option Row
  | .comment _ => none
  | .sample row => some row

/-- The samples among lines. -/
def rows (lines : List Line) : List Row :=
  lines.filterMap Line.row?

/-! ## The reader -/

/-- The character for which an escaped one stands. -/
def unescaped? : Char → Option Char
  | '\\' => some '\\'
  | '"' => some '"'
  | 'n' => some '\n'
  | _ => none

mutual

/-- Reads on within the name of a label. -/
def label? (read : List Char) : List Char → Option (List (String × String) × List Char)
  | [] => none
  | c :: cs => if c = '=' then opening? read cs else label? (read ++ [c]) cs
termination_by structural cs => cs

/-- Reads on before the quote that opens a value. -/
def opening? (label : List Char) : List Char → Option (List (String × String) × List Char)
  | [] => none
  | c :: cs => if c = '"' then quoted? label [] cs else none
termination_by structural cs => cs

/-- Reads on within a value. -/
def quoted? (label read : List Char) : List Char → Option (List (String × String) × List Char)
  | [] => none
  | c :: cs =>
    if c = '"' then closed? (String.ofList label, String.ofList read) cs
    else if c = '\\' then escaped? label read cs
    else quoted? label (read ++ [c]) cs
termination_by structural cs => cs

/-- Reads on within a value, behind a backslash. -/
def escaped? (label read : List Char) : List Char → Option (List (String × String) × List Char)
  | [] => none
  | c :: cs =>
    match unescaped? c with
    | none => none
    | some d => quoted? label (read ++ [d]) cs
termination_by structural cs => cs

/-- Reads on behind a label: another, or the end of the braces. -/
def closed? (label : String × String) : List Char → Option (List (String × String) × List Char)
  | [] => none
  | c :: cs =>
    if c = ',' then (label? [] cs).map fun (labels, rest) => (label :: labels, rest)
    else if c = '\x7d' then some ([label], cs)
    else none
termination_by structural cs => cs

end

/-- Whether a name goes on with a character. -/
def isInName (c : Char) : Bool :=
  c ≠ '\x7b' && c ≠ ' '

def row? (cs : List Char) : Option Row :=
  let name := String.ofList (cs.takeWhile isInName)
  match cs.dropWhile isInName with
  | [] => none
  | c :: cs =>
    if c = ' ' then some ⟨name, [], String.ofList cs⟩
    else
      match label? [] cs with
      | some (labels, ' ' :: value) => some ⟨name, labels, String.ofList value⟩
      | _ => none

def line? : List Char → Option Line
  | [] => none
  | c :: cs =>
    if c = '#' then some (.comment (String.ofList cs)) else (row? (c :: cs)).map .sample

/-- The lines of a text, without the empty ones. -/
def lines? (text : String) : Option (List Line) :=
  ((text.toList.splitOn '\n').filter fun cs => !cs.isEmpty).mapM line?

/-! ## What is read of what is written -/

def Row.chars (row : Row) : List Char :=
  row.name.toList ++ Sample.labelsChars row.labels ++ ' ' :: row.value.toList

def Line.chars : Line → List Char
  | .comment text => '#' :: text.toList
  | .sample row => row.chars

def Line.text (line : Line) : String :=
  String.ofList line.chars

theorem quoted?_escaped (label read text rest : List Char) :
    quoted? label read (text.flatMap Sample.escapeChar ++ rest) =
      quoted? label (read ++ text) rest := by
  induction text generalizing read with
  | nil => simp
  | cons c text ih =>
      have hmore := ih (read ++ [c])
      rw [List.append_assoc, List.singleton_append] at hmore
      rw [← hmore, List.flatMap_cons, List.append_assoc]
      by_cases hbackslash : c = '\\'
      · simp [Sample.escapeChar, hbackslash, quoted?, escaped?, unescaped?]
      · by_cases hquote : c = '"'
        · simp [Sample.escapeChar, hquote, quoted?, escaped?, unescaped?]
        · by_cases hbreak : c = '\n'
          · simp [Sample.escapeChar, hbreak, quoted?, escaped?, unescaped?]
          · simp [Sample.escapeChar, hbackslash, hquote, hbreak, quoted?]

theorem label?_name {name : List Char} (h : '=' ∉ name) (read rest : List Char) :
    label? read (name ++ '=' :: rest) = opening? (read ++ name) rest := by
  induction name generalizing read with
  | nil => simp [label?]
  | cons c name ih =>
      rw [List.mem_cons, not_or] at h
      rw [List.cons_append, label?, if_neg (Ne.symm h.1), ih h.2]
      simp

/-- A label is read as it was written, whatever its value. -/
theorem label?_labelChars {label : String × String} (h : '=' ∉ label.1.toList)
    (rest : List Char) :
    label? [] (Sample.labelChars label ++ rest) = closed? label rest := by
  rw [Sample.labelChars, List.append_assoc, List.cons_append, List.cons_append, label?_name h,
    opening?, if_pos rfl, List.append_assoc, quoted?_escaped, List.singleton_append, quoted?,
    if_pos rfl]
  simp

theorem label?_labels {label : String × String} {labels : List (String × String)}
    (h : ∀ l ∈ label :: labels, '=' ∉ l.1.toList) (rest : List Char) :
    label? [] (Sample.labelChars label ++ labels.flatMap (fun l => ',' :: Sample.labelChars l) ++
      '\x7d' :: rest) = some (label :: labels, rest) := by
  induction labels generalizing label with
  | nil =>
      rw [List.flatMap_nil, List.append_nil, label?_labelChars (h label List.mem_cons_self),
        closed?]
      simp
  | cons next labels ih =>
      have hrest := ih fun l hl => h l (List.mem_cons_of_mem _ hl)
      rw [List.flatMap_cons, List.append_assoc, label?_labelChars (h label List.mem_cons_self),
        List.cons_append, List.cons_append, closed?, if_pos rfl, hrest]
      rfl

theorem break_notMem_escapeChar (c : Char) : '\n' ∉ Sample.escapeChar c := by
  rw [Sample.escapeChar]
  split
  · decide
  · split
    · decide
    · split
      · decide
      · next hbreak => exact fun hmem => hbreak (List.mem_singleton.mp hmem).symm

/-- A text that can be a name. -/
def Plain (name : String) : Prop :=
  ∀ c ∈ name.toList, c ∉ ['#', '\x7b', ' ', '\n']

instance (name : String) : Decidable (Plain name) :=
  List.decidableBAll (fun c => c ∉ ['#', '\x7b', ' ', '\n']) name.toList

theorem Plain.append {name more : String} (h : Plain name) (hmore : Plain more) :
    Plain (name ++ more) := by
  intro c hc
  rw [String.toList_append, List.mem_append] at hc
  exact hc.elim (h c) (hmore c)

/-- A text that can be the name of a label. -/
def IsLegend (name : String) : Prop :=
  ∀ c ∈ name.toList, c ∉ ['=', '\n']

instance (name : String) : Decidable (IsLegend name) :=
  List.decidableBAll (fun c => c ∉ ['=', '\n']) name.toList

def Legends (names : List String) : Prop :=
  ∀ name ∈ names, IsLegend name

instance (names : List String) : Decidable (Legends names) :=
  List.decidableBAll IsLegend names

/-- Nothing in a line is taken for the end of its name, of the name of a label, or of the line. -/
structure Row.Regular (row : Row) : Prop where
  name : Plain row.name
  labels : Legends (row.labels.map Prod.fst)
  value : '\n' ∉ row.value.toList

def Line.Regular : Line → Prop
  | .comment text => '\n' ∉ text.toList
  | .sample row => row.Regular

namespace Row.Regular

variable {row : Row}

theorem isInName_of_mem (h : row.Regular) : ∀ c ∈ row.name.toList, isInName c = true := by
  intro c hc
  have hplain := h.name c hc
  simp_all [isInName]

theorem row?_chars (h : row.Regular) : row? row.chars = some row := by
  rw [row?, Row.chars, List.append_assoc, List.takeWhile_append_of_pos h.isInName_of_mem,
    List.dropWhile_append_of_pos h.isInName_of_mem]
  obtain ⟨name, labels, value⟩ := row
  cases labels with
  | nil => simp [Sample.labelsChars, isInName]
  | cons label labels =>
      have hnames : ∀ l ∈ label :: labels, '=' ∉ l.1.toList := by
        intro l hl hmem
        exact h.labels l.1 (List.mem_map_of_mem hl) '=' hmem (by simp)
      have hread := label?_labels hnames (' ' :: value.toList)
      simp_all [Sample.labelsChars, isInName]

theorem chars_ne_sign_cons (h : row.Regular) (cs : List Char) : row.chars ≠ '#' :: cs := by
  intro hchars
  rw [Row.chars] at hchars
  cases hname : row.name.toList with
  | nil =>
      rw [hname, List.nil_append] at hchars
      cases hlabels : row.labels <;> simp [hlabels, Sample.labelsChars] at hchars
  | cons c name =>
      rw [hname, List.append_assoc, List.cons_append] at hchars
      apply h.name c
      · rw [hname]
        exact List.mem_cons_self
      · simp [(List.cons.inj hchars).1]

theorem break_notMem_chars (h : row.Regular) : '\n' ∉ row.chars := by
  have hname : '\n' ∉ row.name.toList := fun hmem => h.name _ hmem (by simp)
  have hlabel : ∀ l ∈ row.labels, '\n' ∉ Sample.labelChars l := by
    intro l hl
    have hfirst : '\n' ∉ l.1.toList :=
      fun hmem => h.labels l.1 (List.mem_map_of_mem hl) _ hmem (by simp)
    simp [Sample.labelChars, hfirst, break_notMem_escapeChar]
  have hlabels : '\n' ∉ Sample.labelsChars row.labels := by
    generalize row.labels = labels at hlabel
    cases labels with
    | nil => simp [Sample.labelsChars]
    | cons label labels =>
        rw [List.forall_mem_cons] at hlabel
        simpa [Sample.labelsChars, hlabel.1] using hlabel.2
  simp [Row.chars, hname, hlabels, h.value]

end Row.Regular

namespace Line.Regular

variable {line : Line}

theorem break_notMem_chars (h : line.Regular) : '\n' ∉ line.chars := by
  cases line with
  | comment text => exact List.not_mem_cons_of_ne_of_not_mem (by decide) h
  | sample row => exact Row.Regular.break_notMem_chars h

theorem line?_chars (h : line.Regular) : line? line.chars = some line := by
  cases line with
  | comment text => simp [Line.chars, line?]
  | sample row =>
      have hrow : row.Regular := h
      have hread := hrow.row?_chars
      rw [Line.chars]
      cases hchars : row.chars with
      | nil => simp [Row.chars] at hchars
      | cons c cs =>
          have hsign : c ≠ '#' := by
            rintro rfl
            exact hrow.chars_ne_sign_cons cs hchars
          rw [hchars] at hread
          rw [line?, if_neg hsign, hread]
          rfl

end Line.Regular

example : line? "m\x7ba=\"x,\\\"\\\\\\n\"\x7d 3".toList =
    some (.sample ⟨"m", [("a", "x,\"\\\n")], "3"⟩) := by
  decide +kernel

theorem lines?_push {line : Line} (h : line.Regular) (text : String) :
    lines? (line.text.push '\n' ++ text) = (lines? text).map (line :: ·) := by
  have hchars : (line.text.push '\n' ++ text).toList = line.chars ++ '\n' :: text.toList := by
    simp [Line.text]
  have hread := h.line?_chars
  have hfull : line.chars ≠ [] := by
    intro hnil
    rw [hnil] at hread
    cases hread
  rw [lines?, hchars, List.splitOn_append_cons_self_of_not_mem h.break_notMem_chars,
    List.filter_cons_of_pos (by simpa using hfull), List.mapM_cons, hread, lines?]
  cases ((text.toList.splitOn '\n').filter fun cs => !cs.isEmpty).mapM line? <;> rfl

/-- The lines that were written are read, if they are regular. -/
theorem lines?_join {lines : List Line} (h : ∀ line ∈ lines, line.Regular) :
    lines? (String.join (lines.map fun line => line.text.push '\n')) = some lines := by
  induction lines with
  | nil => rfl
  | cons line lines ih =>
      rw [List.forall_mem_cons] at h
      rw [List.map_cons, String.join_cons, lines?_push h.1, ih h.2]
      rfl

end Exposition

end Metrics
end SearchPolling
