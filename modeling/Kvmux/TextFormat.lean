import Mathlib.Data.List.Basic
import Mathlib.Data.List.TakeWhile
import Kvmux.Splitting

namespace TextFormat

-- A reader of the Prometheus text format: one sample a line, with quoted and
-- escaped label values.
abbrev Text := List UInt8

def quote : UInt8 := 34
def backslash : UInt8 := 92
def newline : UInt8 := 10
def comma : UInt8 := 44
def equals : UInt8 := 61
def leftBrace : UInt8 := 123
def rightBrace : UInt8 := 125
def blank : UInt8 := 32
def hash : UInt8 := 35

def isLetter (c : UInt8) : Bool := (97 ≤ c && c ≤ 122) || (65 ≤ c && c ≤ 90) || c == 95

def isNameChar (c : UInt8) : Bool := isLetter c || (48 ≤ c && c ≤ 57)

def isMetricChar (c : UInt8) : Bool := isNameChar c || c == 58

def isBlank (c : UInt8) : Bool := c == 32 || c == 9

-- The rest of a quoted value, after a backslash or not, with what follows its
-- closing quote.
def readValue : Bool → Text → Option (Text × Text)
  | _,[] => none
  | false,c :: rest =>
    if c = quote then some ([],rest)
    else if c = newline then none
    else if c = backslash then readValue true rest
    else (readValue false rest).map fun read => (c :: read.1,read.2)
  | true,c :: rest =>
    if c = backslash ∨ c = quote then (readValue false rest).map fun read => (c :: read.1,read.2)
    else if c = 110 then (readValue false rest).map fun read => (newline :: read.1,read.2)
    else none

def skipBlanks (text : Text) : Text := text.dropWhile isBlank

-- One label, up to the comma or brace after its value.
def readPair (text : Text) : Option ((Text × Text) × Text) :=
  let name := text.takeWhile isNameChar
  if name = [] then none else
  match skipBlanks (text.dropWhile isNameChar) with
  | [] => none
  | c :: rest =>
    if c ≠ equals then none else
    match skipBlanks rest with
    | [] => none
    | d :: body => if d ≠ quote then none else (readValue false body).map fun read => ((name,read.1),skipBlanks read.2)

-- The labels after an opening brace; a comma may stand before the closing one.
def readPairs : Nat → Text → Option (List (Text × Text) × Text)
  | 0,_ => none
  | fuel + 1,text =>
    if (skipBlanks text).head? = some rightBrace then some ([],(skipBlanks text).tail) else
    match readPair (skipBlanks text) with
    | none | some (_,[]) => none
    | some (pair,c :: rest) =>
      if c = rightBrace then some ([pair],rest)
      else if c = comma then (readPairs fuel rest).map fun read => (pair :: read.1,read.2)
      else none

def readLabels : Text → Option (List (Text × Text) × Text)
  | [] => none
  | c :: rest => if c = leftBrace then readPairs (rest.length + 1) rest else none

structure Sample where
  name : Text
  labels : List (Text × Text)
  value : Text
  deriving DecidableEq, Repr

def readSample (line : Text) : Option Sample :=
  let name := line.takeWhile isMetricChar
  let rest := line.dropWhile isMetricChar
  if rest.head? = some leftBrace then
    (readLabels rest).bind fun read =>
      if read.2.head? = some blank then some ⟨name,read.1,read.2.tail⟩ else none
  else if rest.head? = some blank then some ⟨name,[],rest.tail⟩
  else none

def isComment (line : Text) : Bool := line.isEmpty || line.head? == some hash

def readExposition (text : Text) : Option (List Sample) :=
  ((text.splitOn newline).filter fun line => !isComment line).mapM readSample

section Values

-- A text that stands for a value wherever it is quoted.
def ReadsAs (written value : Text) : Prop := ∀ rest, readValue false (written ++ quote :: rest) = some (value,rest)

def Plain (c : UInt8) : Prop := c ≠ quote ∧ c ≠ newline ∧ c ≠ backslash

instance : DecidablePred Plain := fun c => inferInstanceAs (Decidable (c ≠ quote ∧ c ≠ newline ∧ c ≠ backslash))

theorem ReadsAs.nil : ReadsAs [] [] := fun _ => rfl

theorem ReadsAs.plain (plain : Plain c) (reads : ReadsAs written value) : ReadsAs (c :: written) (c :: value) := by
  intro rest
  rw [List.cons_append,readValue,if_neg plain.1,if_neg plain.2.1,if_neg plain.2.2,reads rest]
  rfl

theorem ReadsAs.escaped (special : c = backslash ∨ c = quote) (reads : ReadsAs written value) :
    ReadsAs (backslash :: c :: written) (c :: value) := by
  intro rest
  rw [List.cons_append,List.cons_append,readValue,if_neg (by decide),if_neg (by decide),if_pos rfl,readValue,if_pos special,
    reads rest]
  rfl

theorem ReadsAs.newline (reads : ReadsAs written value) :
    ReadsAs (backslash :: 110 :: written) (TextFormat.newline :: value) := by
  intro rest
  rw [List.cons_append,List.cons_append,readValue,if_neg (by decide),if_neg (by decide),if_pos rfl,readValue,if_neg (by decide),
    if_pos rfl,reads rest]
  rfl

theorem readsAs_self {written : Text} (plain : ∀ c ∈ written, Plain c) : ReadsAs written written := by
  induction written with
  | nil => exact .nil
  | cons c rest ih =>
    obtain ⟨first,later⟩ := List.forall_mem_cons.mp plain
    exact .plain first (ih later)

end Values
section Labels

def Name (name : Text) : Prop := name ≠ [] ∧ ∀ c ∈ name, isNameChar c = true

instance : DecidablePred Name := fun name => inferInstanceAs (Decidable (name ≠ [] ∧ ∀ c ∈ name, isNameChar c = true))

theorem nameChar_solid (c : UInt8) (name : isNameChar c = true) : isBlank c = false ∧ c ≠ rightBrace := by
  constructor
  · cases found : isBlank c with
    | false => rfl
    | true =>
      rcases Bool.or_eq_true_iff.mp found with same | same
      · cases eq_of_beq same
        cases name
      · cases eq_of_beq same
        cases name
  · rintro rfl
    cases name

theorem skipBlanks_name (name : Name text) (rest : Text) : skipBlanks (text ++ rest) = text ++ rest ∧
    (text ++ rest).head? ≠ some rightBrace := by
  cases text with
  | nil => exact absurd rfl name.1
  | cons c more =>
    obtain ⟨solid,other⟩ := nameChar_solid c (name.2 c List.mem_cons_self)
    refine ⟨?_,fun brace => other (Option.some.inj brace)⟩
    rw [List.cons_append,skipBlanks,List.dropWhile_cons_of_neg (by simp [solid])]

def pairText (name written : Text) : Text := name ++ equals :: quote :: written ++ [quote]

-- A comma or brace, which is what ends a label.
def Ends (c : UInt8) : Prop := c = comma ∨ c = rightBrace

theorem readPair_text (name : Name label) (reads : ReadsAs written value) (ends : Ends c) (rest : Text) :
    readPair (pairText label written ++ c :: rest) = some ((label,value),c :: rest) := by
  have shape : pairText label written ++ c :: rest = label ++ equals :: (quote :: (written ++ quote :: c :: rest)) := by
    simp [pairText]
  have taken : (label ++ equals :: (quote :: (written ++ quote :: c :: rest))).takeWhile isNameChar = label := by
    rw [List.takeWhile_append_of_pos name.2,List.takeWhile_cons_of_neg (by decide),List.append_nil]
  have dropped : (label ++ equals :: (quote :: (written ++ quote :: c :: rest))).dropWhile isNameChar =
      equals :: quote :: (written ++ quote :: c :: rest) := by
    rw [List.dropWhile_append_of_pos name.2,List.dropWhile_cons_of_neg (by decide)]
  have solid : skipBlanks (c :: rest) = c :: rest := by
    rcases ends with rfl | rfl <;> rfl
  rw [shape,readPair,taken,dropped,if_neg name.1]
  change Option.map _ (readValue false (written ++ quote :: c :: rest)) = _
  rw [reads (c :: rest),Option.map_some,solid]

-- A label set as it is written, between braces.
def labelsText (pairs : List (Text × Text)) : Text :=
  leftBrace :: [comma].intercalate (pairs.map fun pair => pairText pair.1 pair.2) ++ [rightBrace]

def Reads (written : List (Text × Text)) (pairs : List (Text × Text)) : Prop :=
  List.Forall₂ (fun one two => Name one.1 ∧ one.1 = two.1 ∧ ReadsAs one.2 two.2) written pairs

theorem readPairs_step (name : Name label) (reads : ReadsAs written value) (ends : Ends c) (rest : Text) :
    readPairs (fuel + 1) (pairText label written ++ c :: rest) =
      if c = rightBrace then some ([(label,value)],rest)
      else (readPairs fuel rest).map fun read => ((label,value) :: read.1,read.2) := by
  have shape : pairText label written ++ c :: rest = label ++ (equals :: quote :: written ++ [quote] ++ c :: rest) := by
    simp [pairText]
  obtain ⟨solid,inside⟩ := skipBlanks_name name (equals :: quote :: written ++ [quote] ++ c :: rest)
  rw [← shape] at solid inside
  rw [readPairs,solid,if_neg inside,readPair_text name reads ends]
  dsimp only
  rcases ends with rfl | rfl
  · rw [if_neg (by decide),if_pos rfl,if_neg (by decide)]
  · rfl

theorem readPairs_text (reads : Reads written pairs) (given : written ≠ []) (enough : written.length ≤ fuel) (rest : Text) :
    readPairs fuel ([comma].intercalate (written.map fun pair => pairText pair.1 pair.2) ++ rightBrace :: rest) =
      some (pairs,rest) := by
  induction reads generalizing fuel with
  | nil => exact absurd rfl given
  | cons first others ih =>
    rename_i one two more pairs
    obtain ⟨label,value⟩ := two
    obtain ⟨name,rfl,reads⟩ := first
    obtain ⟨left,rfl⟩ : ∃ left, fuel = left + 1 := ⟨fuel - 1,by simp at enough; omega⟩
    cases others with
    | nil =>
      rw [List.map_singleton,List.intercalate_singleton,readPairs_step name reads (.inr rfl),if_pos rfl]
    | cons second later =>
      have tail := ih (by simp) (Nat.le_of_succ_le_succ enough)
      rw [List.map_cons,List.map_cons,List.intercalate_cons_cons,List.append_assoc,List.append_assoc,List.singleton_append,
        readPairs_step name reads (.inl rfl),if_neg (by decide)]
      rw [List.map_cons] at tail
      rw [tail]
      rfl

theorem pairs_short (written : List (Text × Text)) :
    written.length ≤ ([comma].intercalate (written.map fun pair => pairText pair.1 pair.2)).length := by
  induction written with
  | nil => exact Nat.le_refl 0
  | cons first rest ih =>
    cases rest with
    | nil =>
      simp only [List.map_singleton,List.intercalate_singleton,pairText,List.length_append,List.length_cons]
      omega
    | cons second more =>
      rw [List.map_cons,List.map_cons,List.intercalate_cons_cons]
      rw [List.map_cons] at ih
      simp only [List.length_append,List.length_cons] at ih ⊢
      omega

theorem readLabels_text (reads : Reads written pairs) (given : written ≠ []) (rest : Text) :
    readLabels (labelsText written ++ rest) = some (pairs,rest) := by
  have short := pairs_short written
  have shape : labelsText written ++ rest =
      leftBrace :: ([comma].intercalate (written.map fun pair => pairText pair.1 pair.2) ++ rightBrace :: rest) := by
    simp [labelsText]
  rw [shape,readLabels,if_pos rfl,readPairs_text reads given ?_]
  rw [List.length_append]
  omega

theorem pairText_unbroken (name : Name label) (unbroken : newline ∉ written) : newline ∉ pairText label written := by
  have named : newline ∉ label := by
    intro inside
    cases name.2 newline inside
  simp only [pairText,List.mem_append,List.mem_cons,List.not_mem_nil,or_false,not_or]
  exact ⟨⟨named,by decide,by decide,unbroken⟩,by decide⟩

theorem pairs_unbroken (reads : Reads written pairs) (unbroken : ∀ pair ∈ written, newline ∉ pair.2) :
    newline ∉ [comma].intercalate (written.map fun pair => pairText pair.1 pair.2) := by
  induction reads with
  | nil => exact List.not_mem_nil
  | cons first others ih =>
    obtain ⟨own,later⟩ := List.forall_mem_cons.mp unbroken
    have one := pairText_unbroken first.1 own
    have rest := ih later
    cases others with
    | nil =>
      rw [List.map_singleton,List.intercalate_singleton]
      exact one
    | cons second more =>
      rw [List.map_cons,List.map_cons,List.intercalate_cons_cons]
      rw [List.map_cons] at rest
      simp only [List.mem_append,List.mem_singleton,not_or]
      exact ⟨⟨one,by decide⟩,rest⟩

theorem labelsText_unbroken (reads : Reads written pairs) (unbroken : ∀ pair ∈ written, newline ∉ pair.2) :
    newline ∉ labelsText written := by
  have inner := pairs_unbroken reads unbroken
  simp only [labelsText,List.mem_append,List.mem_cons,List.not_mem_nil,or_false,not_or]
  exact ⟨⟨by decide,inner⟩,by decide⟩

end Labels
section Lines

def MetricName (name : Text) : Prop := name ≠ [] ∧ ∀ c ∈ name, isMetricChar c = true

instance : DecidablePred MetricName := fun name => inferInstanceAs (Decidable (name ≠ [] ∧ ∀ c ∈ name, isMetricChar c = true))

theorem MetricName.append (name : MetricName metric) (more : ∀ c ∈ rest, isMetricChar c = true) : MetricName (metric ++ rest) :=
  ⟨List.append_ne_nil_of_left_ne_nil name.1 rest,List.forall_mem_append.mpr ⟨name.2,more⟩⟩

theorem metric_head (name : MetricName metric) (rest : Text) : isComment (metric ++ rest) = false := by
  obtain ⟨given,chars⟩ := name
  cases metric with
  | nil => exact absurd rfl given
  | cons c more =>
    have own := chars c List.mem_cons_self
    have other : c ≠ hash := by
      rintro rfl
      cases own
    simpa [isComment] using other

theorem metric_unbroken (name : MetricName metric) : newline ∉ metric := by
  intro inside
  cases name.2 newline inside

-- The text between a metric's name and the blank before the value, and what it
-- is read as: the labels in braces, or nothing.
def Labelled (text : Text) (pairs : List (Text × Text)) : Prop :=
  newline ∉ text ∧ ∀ metric value, MetricName metric → readSample (metric ++ text ++ blank :: value) = some ⟨metric,pairs,value⟩

theorem labelled_none : Labelled [] [] := by
  refine ⟨List.not_mem_nil,fun metric value name => ?_⟩
  rw [List.append_nil,readSample,List.takeWhile_append_of_pos name.2,List.dropWhile_append_of_pos name.2,
    List.takeWhile_cons_of_neg (by decide),List.dropWhile_cons_of_neg (by decide),List.append_nil]
  rfl

theorem labelled_text (reads : Reads written pairs) (given : written ≠ []) (unbroken : ∀ pair ∈ written, newline ∉ pair.2) :
    Labelled (labelsText written) pairs := by
  refine ⟨labelsText_unbroken reads unbroken,fun metric value name => ?_⟩
  have read := readLabels_text reads given (blank :: value)
  obtain ⟨inside,shape⟩ : ∃ inside, labelsText written ++ blank :: value = leftBrace :: inside := ⟨_,rfl⟩
  rw [shape] at read
  rw [List.append_assoc,shape,readSample,List.takeWhile_append_of_pos name.2,List.dropWhile_append_of_pos name.2,
    List.takeWhile_cons_of_neg (by decide),List.dropWhile_cons_of_neg (by decide),List.append_nil,List.head?_cons,
    if_pos rfl,read]
  rfl

theorem labelled_unique (one : Labelled first pairs) (two : Labelled second others) (name : MetricName metric)
    (named : MetricName other)
    (same : metric ++ first ++ blank :: value = other ++ second ++ blank :: result) : metric = other ∧ pairs = others := by
  have read := one.2 metric value name
  rw [same,two.2 other result named] at read
  cases read
  exact ⟨rfl,rfl⟩

-- What a stretch of whole lines adds to the samples of what follows it.
def Emits (text : Text) (samples : List Sample) : Prop :=
  ∀ rest, readExposition (text ++ rest) = (readExposition rest).map (samples ++ ·)

theorem Emits.nil : Emits [] [] := by
  intro rest
  cases read : readExposition rest <;> simp [read]

theorem Emits.append (one : Emits first samples) (two : Emits second more) : Emits (first ++ second) (samples ++ more) := by
  intro rest
  rw [List.append_assoc,one,two,Option.map_map]
  simp [Function.comp_def]

theorem Emits.flatMap {X : Type} {write : X → Text} {samples : X → List Sample} {xs : List X}
    (emits : ∀ x ∈ xs, Emits (write x) (samples x)) : Emits (xs.flatMap write) (xs.flatMap samples) := by
  induction xs with
  | nil => exact .nil
  | cons x rest ih =>
    obtain ⟨first,later⟩ := List.forall_mem_cons.mp emits
    exact first.append (ih later)

theorem readExposition_line (unbroken : newline ∉ line) (rest : Text) :
    readExposition (line ++ [newline] ++ rest) =
      if isComment line then readExposition rest
      else (readSample line).bind fun sample => (readExposition rest).map (sample :: ·) := by
  rw [readExposition,List.append_assoc,List.singleton_append,Splitting.splitOn_first unbroken]
  cases comment : isComment line with
  | true => simp [comment,readExposition]
  | false =>
    rw [List.filter_cons_of_pos (by simp [comment]),List.mapM_cons,if_neg (by decide)]
    cases readSample line with
    | none => rfl
    | some sample =>
      cases read : readExposition rest <;> simp_all [readExposition]

theorem emits_comment (unbroken : newline ∉ line) (comment : isComment line = true) : Emits (line ++ [newline]) [] := by
  intro rest
  rw [readExposition_line unbroken,comment]
  cases readExposition rest <;> simp

theorem comment_opens (opens : line.head? = some hash) (rest : Text) : isComment (line ++ rest) = true := by
  cases line with
  | nil => cases opens
  | cons c more =>
    cases opens
    rfl

-- A whole comment line, with its newline.
def isHeader (line : Text) : Bool :=
  line.head? == some hash && line.getLast? == some newline && !line.dropLast.contains newline

theorem emits_header (header : isHeader line = true) : Emits line [] := by
  simp only [isHeader,Bool.and_eq_true,beq_iff_eq,Bool.not_eq_true',List.contains_eq_mem,decide_eq_false_iff_not] at header
  obtain ⟨⟨opens,ends⟩,unbroken⟩ := header
  have shape : line = line.dropLast ++ [newline] := (List.dropLast_append_getLast? newline ends).symm
  have comment : isComment line.dropLast = true := by
    cases line with
    | nil => cases opens
    | cons c more =>
      cases opens
      cases more <;> rfl
  rw [shape]
  exact emits_comment unbroken comment

theorem Emits.header (emits : Emits first samples) (header : isHeader line = true) : Emits (first ++ line) samples := by
  have whole := emits.append (emits_header header)
  rwa [List.append_nil] at whole

theorem emits_sample (unbroken : newline ∉ line) (shown : isComment line = false) (read : readSample line = some sample) :
    Emits (line ++ [newline]) [sample] := by
  intro rest
  rw [readExposition_line unbroken,shown,read]
  rfl

theorem emits_labelled (name : MetricName metric) (labelled : Labelled text pairs) (unbroken : newline ∉ value) :
    Emits (metric ++ text ++ [blank] ++ value ++ [newline]) [⟨metric,pairs,value⟩] := by
  have shape : metric ++ text ++ [blank] ++ value = metric ++ text ++ blank :: value := by simp
  rw [shape]
  refine emits_sample ?_ ?_ (labelled.2 metric value name)
  · simp only [List.mem_append,List.mem_cons,not_or]
    exact ⟨⟨metric_unbroken name,labelled.1⟩,by decide,unbroken⟩
  · rw [List.append_assoc]
    exact metric_head name _

end Lines
end TextFormat
