import Mathlib.Data.List.Basic
import Kvmux.Metrics
import Kvmux.TextFormat

namespace Kvmux.Exposition
open Metrics TextFormat

def escByte (c : UInt8) : Bytes :=
  if c = 92 then text "\\\\"
  else if c = 34 then text "\\\""
  else if c = 10 then text "\\n"
  else [c]

def esc (v : Bytes) : Bytes := v.flatMap escByte

def labelStr (l : Labels) : Bytes :=
  text "\x7broute=\"" ++ esc l.route ++ text "\",backend=\"" ++ esc l.backend ++ text "\",model=\"" ++ esc l.model ++
    text "\"\x7d"

-- What a registry means: its samples, each with its metric, its labels and its
-- value.
def pairs (l : Labels) : List (Bytes × Bytes) := [(text "route",l.route),(text "backend",l.backend),(text "model",l.model)]

def histogramSamples (fmt : V → Bytes) (name : Bytes) (labels : List (Bytes × Bytes)) (h : Histogram V) : List Sample :=
  ((h.bounds.zip h.counts).map fun bucket =>
    ⟨name ++ text "_bucket",labels ++ [(text "le",fmt bucket.1)],text (toString bucket.2)⟩) ++
  [⟨name ++ text "_bucket",labels ++ [(text "le",text "+Inf")],text (toString h.totalCount)⟩,
    ⟨name ++ text "_sum",labels,fmt h.sum⟩,⟨name ++ text "_count",labels,text (toString h.totalCount)⟩]

def seriesSamples (fmt : V → Bytes) (name : Bytes) (m : List (Labels × Histogram V)) : List Sample :=
  m.flatMap fun entry => histogramSamples fmt name (pairs entry.1) entry.2

def samples (fmt : V → Bytes) (r : Registry V) : List Sample :=
  seriesSamples fmt (text "kvmux:ttft_seconds") r.ttft ++
  seriesSamples fmt (text "kvmux:inter_token_latency_seconds") r.itl ++
  seriesSamples fmt (text "kvmux:e2e_request_latency_seconds") r.e2e ++
  seriesSamples fmt (text "kvmux:request_queue_time_seconds") r.queue ++
  seriesSamples fmt (text "kvmux:gateway_overhead_seconds") r.overhead ++
  [⟨text "kvmux:requests_running",[],text (toString r.requestsRunning)⟩] ++
  [⟨text "kvmux:requests_waiting",[],text (toString r.requestsWaiting)⟩] ++
  (r.requestsTotal.map fun entry => ⟨text "kvmux:requests_total",[(text "code",entry.1)],text (toString entry.2)⟩) ++
  (r.affinitySpills.map fun entry => ⟨text "kvmux:affinity_spills_total",pairs entry.1,text (toString entry.2)⟩) ++
  (r.backendFailures.map fun entry => ⟨text "kvmux:backend_failures_total",pairs entry.1,text (toString entry.2)⟩)

-- How an output stream prints a number is the standard library's: what is used
-- of it is that it prints digits, signs, a point, an exponent or a word.
variable (print : Float → Bytes)

def Printed : Prop := ∀ d, ∀ c ∈ print d, c ∈ text "+-.0123456789aefin"

def fmtDouble (d : Float) : Bytes :=
  if d.isInf then if d > 0 then text "+Inf" else text "-Inf" else print d

def withLe (labelStr le : Bytes) : Bytes :=
  if labelStr.isEmpty || labelStr == text "\x7b\x7d" then text "\x7ble=\"" ++ le ++ text "\"\x7d"
  else
    let inner := (labelStr.drop 1).take (labelStr.length - 2)
    text "\x7b" ++ inner ++ text ",le=\"" ++ le ++ text "\"\x7d"

def write (h : Histogram Float) (name labelStr : Bytes) : Bytes :=
  ((h.bounds.zip h.counts).flatMap fun bucket =>
    name ++ text "_bucket" ++ withLe labelStr (fmtDouble print bucket.1) ++ text " " ++ text (toString bucket.2) ++ text "\n") ++
  (name ++ text "_bucket" ++ withLe labelStr (text "+Inf") ++ text " " ++ text (toString h.totalCount) ++ text "\n") ++
  (name ++ text "_sum" ++ labelStr ++ text " " ++ fmtDouble print h.sum ++ text "\n") ++
  (name ++ text "_count" ++ labelStr ++ text " " ++ text (toString h.totalCount) ++ text "\n")

def histBlock (name help : Bytes) (m : List (Labels × Histogram Float)) : Bytes :=
  (text "# HELP " ++ name ++ text " " ++ help ++ text "\n") ++
  (text "# TYPE " ++ name ++ text " histogram\n") ++
  m.flatMap fun entry => write print entry.2 name (labelStr entry.1)

def expose (r : Registry Float) : Bytes :=
  histBlock print (text "kvmux:ttft_seconds") (text "Time to first token, seconds.") r.ttft ++
  histBlock print (text "kvmux:inter_token_latency_seconds") (text "Inter-token (time-per-output-token) latency, seconds.") r.itl ++
  histBlock print (text "kvmux:e2e_request_latency_seconds") (text "End-to-end request latency, seconds.") r.e2e ++
  histBlock print (text "kvmux:request_queue_time_seconds") (text "Admission queue wait time, seconds.") r.queue ++
  histBlock print (text "kvmux:gateway_overhead_seconds")
    (text "Gateway self-overhead: admission to first upstream byte forwarded, seconds.") r.overhead ++
  text "# HELP kvmux:requests_running In-flight requests.\n" ++
  text "# TYPE kvmux:requests_running gauge\n" ++
  (text "kvmux:requests_running " ++ text (toString r.requestsRunning) ++ text "\n") ++
  text "# HELP kvmux:requests_waiting Requests waiting in the admission queue.\n" ++
  text "# TYPE kvmux:requests_waiting gauge\n" ++
  (text "kvmux:requests_waiting " ++ text (toString r.requestsWaiting) ++ text "\n") ++
  text "# HELP kvmux:requests_total Completed requests by HTTP status code.\n" ++
  text "# TYPE kvmux:requests_total counter\n" ++
  (r.requestsTotal.flatMap fun entry =>
    text "kvmux:requests_total\x7bcode=\"" ++ esc entry.1 ++ text "\"\x7d " ++ text (toString entry.2) ++ text "\n") ++
  text "# HELP kvmux:affinity_spills_total Prefix-affinity load-guard spill cascades.\n" ++
  text "# TYPE kvmux:affinity_spills_total counter\n" ++
  (r.affinitySpills.flatMap fun entry =>
    text "kvmux:affinity_spills_total" ++ labelStr entry.1 ++ text " " ++ text (toString entry.2) ++ text "\n") ++
  text "# HELP kvmux:backend_failures_total Upstream request failures.\n" ++
  text "# TYPE kvmux:backend_failures_total counter\n" ++
  (r.backendFailures.flatMap fun entry =>
    text "kvmux:backend_failures_total" ++ labelStr entry.1 ++ text " " ++ text (toString entry.2) ++ text "\n")

-- The text of a bucket's bound, as written for each bound and for the last.
def Bound (le : Bytes) : Prop := le = text "+Inf" ∨ ∃ d, le = fmtDouble print d

variable {print}

section Escaping

theorem esc_reads (v : Bytes) : ReadsAs (esc v) v := by
  induction v with
  | nil => exact .nil
  | cons c rest ih =>
    change ReadsAs (escByte c ++ esc rest) (c :: rest)
    unfold escByte
    split
    · rename_i same
      subst same
      exact .escaped (.inl rfl) ih
    · split
      · rename_i same
        subst same
        exact .escaped (.inr rfl) ih
      · split
        · rename_i same
          subst same
          exact .newline ih
        · rename_i slash mark feed
          exact .plain ⟨mark,feed,slash⟩ ih

theorem esc_unbroken (v : Bytes) : newline ∉ esc v := by
  intro inside
  obtain ⟨c,_,own⟩ := List.mem_flatMap.mp inside
  unfold escByte at own
  split at own
  · revert own
    decide
  · split at own
    · revert own
      decide
    · split at own
      · revert own
        decide
      · rename_i feed
        exact feed (List.mem_singleton.mp own).symm

end Escaping
section Numbers

theorem text_append (a b : String) : text (a ++ b) = text a ++ text b := by
  simp [text,String.toUTF8]

theorem text_ofList (cs : List Char) : text (String.ofList cs) = cs.flatMap String.utf8EncodeChar := by
  simp [text,String.toUTF8,List.utf8Encode]

theorem digit_unbroken {c : Char} (digit : c.isDigit = true) : newline ∉ String.utf8EncodeChar c := by
  simp only [Char.isDigit,Bool.and_eq_true,decide_eq_true_eq] at digit
  have low : 48 ≤ c.val.toNat := digit.1
  have high : c.val.toNat ≤ 57 := digit.2
  have small : c.val.toNat ≤ 127 := by omega
  simp only [String.utf8EncodeChar,if_pos small,List.mem_singleton]
  intro same
  have value := congrArg UInt8.toNat same
  rw [UInt8.toNat_ofNat'] at value
  change 10 = _ at value
  omega

theorem nat_unbroken (n : Nat) : newline ∉ text (toString n) := by
  change newline ∉ text (Nat.repr n)
  rw [Nat.repr_eq_ofList_toDigits,text_ofList]
  intro inside
  obtain ⟨c,member,own⟩ := List.mem_flatMap.mp inside
  exact digit_unbroken (Nat.isDigit_of_mem_toDigits (by decide) (by decide) member) own

theorem int_unbroken (n : Int) : newline ∉ text (toString n) := by
  cases n with
  | ofNat n => exact nat_unbroken n
  | negSucc n =>
    change newline ∉ text ("-" ++ toString (n + 1))
    rw [text_append,List.mem_append,not_or]
    exact ⟨by decide,nat_unbroken (n + 1)⟩

theorem fmtDouble_plain (printed : Printed print) (d : Float) : ∀ c ∈ fmtDouble print d, Plain c := by
  have plain : ∀ c ∈ text "+-.0123456789aefin", Plain c := by decide +kernel
  unfold fmtDouble
  split
  · split
    · decide +kernel
    · decide +kernel
  · exact fun c member => plain c (printed d c member)

theorem bound_plain (printed : Printed print) (bound : Bound print le) : ∀ c ∈ le, Plain c := by
  rcases bound with rfl | ⟨d,rfl⟩
  · decide +kernel
  · exact fmtDouble_plain printed d

theorem plain_unbroken {v : Bytes} (plain : ∀ c ∈ v, Plain c) : newline ∉ v :=
  fun inside => (plain newline inside).2.1 rfl

end Numbers
section Labelling

def writtenPairs (l : Labels) : List (Bytes × Bytes) :=
  [(text "route",esc l.route),(text "backend",esc l.backend),(text "model",esc l.model)]

theorem labelStr_text (l : Labels) : labelStr l = labelsText (writtenPairs l) := by
  have first : text "\x7broute=\"" = leftBrace :: text "route" ++ [equals,quote] := by decide
  have second : text "\",backend=\"" = [quote,comma] ++ text "backend" ++ [equals,quote] := by decide
  have third : text "\",model=\"" = [quote,comma] ++ text "model" ++ [equals,quote] := by decide
  have last : text "\"\x7d" = [quote,rightBrace] := by decide
  simp [labelStr,labelsText,writtenPairs,pairText,List.intercalate_cons_cons,List.intercalate_singleton,first,second,third,last]

theorem written_reads (l : Labels) (more : Reads written others) : Reads (writtenPairs l ++ written) (pairs l ++ others) := by
  have route : Name (text "route") := by decide +kernel
  have backend : Name (text "backend") := by decide +kernel
  have model : Name (text "model") := by decide +kernel
  exact .cons ⟨route,rfl,esc_reads l.route⟩ (.cons ⟨backend,rfl,esc_reads l.backend⟩ (.cons ⟨model,rfl,esc_reads l.model⟩ more))

theorem written_unbroken (l : Labels) : ∀ pair ∈ writtenPairs l, newline ∉ pair.2 := by
  simp [writtenPairs,esc_unbroken]

theorem labelStr_labelled (l : Labels) : Labelled (labelStr l) (pairs l) := by
  rw [labelStr_text]
  exact labelled_text (written_reads l .nil) (by simp [writtenPairs]) (written_unbroken l)

-- Stripping the braces leaves the labels that were between them.
theorem withLe_braced {inner : Bytes} (full : inner ≠ []) (le : Bytes) :
    withLe (leftBrace :: inner ++ [rightBrace]) le =
      leftBrace :: inner ++ comma :: text "le" ++ [equals,quote] ++ le ++ [quote,rightBrace] := by
  have stripped :
      ((leftBrace :: inner ++ [rightBrace]).drop 1).take ((leftBrace :: inner ++ [rightBrace]).length - 2) = inner := by
    simp
  have other : leftBrace :: inner ++ [rightBrace] ≠ text "\x7b\x7d" := by
    intro same
    have empty : (leftBrace :: inner ++ [rightBrace]).length = 2 := congrArg List.length same
    exact full (List.eq_nil_of_length_eq_zero (by simpa using empty))
  have opens : text "\x7b" = [leftBrace] := by decide
  have joins : text ",le=\"" = comma :: text "le" ++ [equals,quote] := by decide
  have ends : text "\"\x7d" = [quote,rightBrace] := by decide
  unfold withLe
  rw [if_neg (by simpa using other),stripped,opens,joins,ends]
  simp

theorem withLe_text (l : Labels) (le : Bytes) :
    withLe (labelStr l) le = labelsText (writtenPairs l ++ [(text "le",le)]) := by
  rw [labelStr_text,labelsText,withLe_braced]
  · simp [labelsText,writtenPairs,pairText,List.intercalate_cons_cons,List.intercalate_singleton]
  · simp [writtenPairs,List.intercalate_cons_cons,pairText]

theorem withLe_reads (printed : Printed print) (bound : Bound print le) (l : Labels) :
    Reads (writtenPairs l ++ [(text "le",le)]) (pairs l ++ [(text "le",le)]) := by
  have named : Name (text "le") := by decide +kernel
  exact written_reads l (.cons ⟨named,rfl,readsAs_self (bound_plain printed bound)⟩ .nil)

theorem withLe_labelled (printed : Printed print) (bound : Bound print le) (l : Labels) :
    Labelled (withLe (labelStr l) le) (pairs l ++ [(text "le",le)]) := by
  have plain := bound_plain printed bound
  rw [withLe_text]
  refine labelled_text (withLe_reads printed bound l) (by simp [writtenPairs]) ?_
  exact List.forall_mem_append.mpr ⟨written_unbroken l,List.forall_mem_singleton.mpr (plain_unbroken plain)⟩

theorem code_labelled (code : Bytes) :
    Labelled (text "\x7bcode=\"" ++ esc code ++ text "\"\x7d") [(text "code",code)] := by
  have shape : text "\x7bcode=\"" ++ esc code ++ text "\"\x7d" = labelsText [(text "code",esc code)] := by
    have first : text "\x7bcode=\"" = leftBrace :: text "code" ++ [equals,quote] := by decide
    have last : text "\"\x7d" = [quote,rightBrace] := by decide
    simp [labelsText,pairText,List.intercalate_singleton,first,last]
  have named : Name (text "code") := by decide +kernel
  rw [shape]
  exact labelled_text (.cons ⟨named,rfl,esc_reads code⟩ .nil) (by simp) (by simp [esc_unbroken])

end Labelling
section Lines

theorem emits_line (name : MetricName metric) (labelled : Labelled labels meant) (unbroken : newline ∉ value) :
    Emits (metric ++ labels ++ text " " ++ value ++ text "\n") [⟨metric,meant,value⟩] :=
  emits_labelled name labelled unbroken

theorem write_emits (printed : Printed print) (h : Histogram Float) (named : MetricName name) (l : Labels) :
    Emits (write print h name (labelStr l)) (histogramSamples (fmtDouble print) name (pairs l) h) := by
  have bucket : MetricName (name ++ text "_bucket") := named.append (by decide +kernel)
  have sum : MetricName (name ++ text "_sum") := named.append (by decide +kernel)
  have count : MetricName (name ++ text "_count") := named.append (by decide +kernel)
  have total := nat_unbroken h.totalCount
  have buckets : Emits _ ((h.bounds.zip h.counts).flatMap _) := Emits.flatMap fun entry _ =>
    emits_line bucket (withLe_labelled printed (.inr ⟨entry.1,rfl⟩) l) (nat_unbroken entry.2)
  have last := emits_line bucket (withLe_labelled printed (.inl rfl) l) total
  have sums := emits_line sum (labelStr_labelled l) (plain_unbroken (fmtDouble_plain printed h.sum))
  have counts := emits_line count (labelStr_labelled l) total
  have whole := ((buckets.append last).append sums).append counts
  rw [← List.map_eq_flatMap] at whole
  simpa only [write,histogramSamples,List.append_assoc,List.cons_append,List.nil_append] using whole

theorem histBlock_emits (printed : Printed print) (named : MetricName name) (unbroken : newline ∉ help)
    (m : List (Labels × Histogram Float)) : Emits (histBlock print name help m) (seriesSamples (fmtDouble print) name m) := by
  have own := metric_unbroken named
  have helps : Emits (text "# HELP " ++ name ++ text " " ++ help ++ [newline]) [] := by
    refine emits_comment ?_ ?_
    · simp only [List.mem_append,not_or]
      exact ⟨⟨⟨by decide,own⟩,by decide⟩,unbroken⟩
    · rw [List.append_assoc,List.append_assoc]
      exact comment_opens (by decide) _
  have types : Emits (text "# TYPE " ++ name ++ text " histogram" ++ [newline]) [] := by
    refine emits_comment ?_ ?_
    · simp only [List.mem_append,not_or]
      exact ⟨⟨by decide,own⟩,by decide⟩
    · rw [List.append_assoc]
      exact comment_opens (by decide) _
  have shape : text " histogram\n" = text " histogram" ++ [newline] := by decide
  have series : Emits _ (m.flatMap _) := Emits.flatMap fun entry _ => write_emits printed entry.2 named entry.1
  rw [histBlock,shape,← List.append_assoc (text "# TYPE " ++ name)]
  exact (helps.append types).append series

theorem emits_counters {K : Type} {written : K → Bytes} {meant : K → List (Bytes × Bytes)} (named : MetricName name)
    (labelled : ∀ key, Labelled (written key) (meant key)) (entries : List (K × Nat)) :
    Emits (entries.flatMap fun entry => name ++ written entry.1 ++ text " " ++ text (toString entry.2) ++ text "\n")
      (entries.map fun entry => ⟨name,meant entry.1,text (toString entry.2)⟩) := by
  rw [List.map_eq_flatMap]
  exact Emits.flatMap fun entry _ => emits_line named (labelled entry.1) (nat_unbroken entry.2)

theorem emits_codes (entries : List (Bytes × Nat)) :
    Emits (entries.flatMap fun entry =>
        text "kvmux:requests_total\x7bcode=\"" ++ esc entry.1 ++ text "\"\x7d " ++ text (toString entry.2) ++ text "\n")
      (entries.map fun entry => ⟨text "kvmux:requests_total",[(text "code",entry.1)],text (toString entry.2)⟩) := by
  have opens : text "kvmux:requests_total\x7bcode=\"" = text "kvmux:requests_total" ++ text "\x7bcode=\"" := by decide +kernel
  have ends : text "\"\x7d " = text "\"\x7d" ++ text " " := by decide
  have named : MetricName (text "kvmux:requests_total") := by decide +kernel
  have lines := emits_counters named code_labelled entries
  simpa only [opens,ends,List.append_assoc] using lines

theorem emits_gauge (named : MetricName name) (shape : opening = name ++ text " ") (n : Int) :
    Emits (opening ++ text (toString n) ++ text "\n") [⟨name,[],text (toString n)⟩] := by
  have line := emits_line named labelled_none (int_unbroken n)
  rw [shape]
  simpa only [List.append_nil] using line

theorem expose_emits (printed : Printed print) (r : Registry Float) : Emits (expose print r) (samples (fmtDouble print) r) := by
  unfold expose samples
  -- From the last block back to the first.
  refine .append (.header (.header ?_ (by decide +kernel)) (by decide +kernel))
    (emits_counters (by decide +kernel) labelStr_labelled r.backendFailures)
  refine .append (.header (.header ?_ (by decide +kernel)) (by decide +kernel))
    (emits_counters (by decide +kernel) labelStr_labelled r.affinitySpills)
  refine .append (.header (.header ?_ (by decide +kernel)) (by decide +kernel)) (emits_codes r.requestsTotal)
  refine .append (.header (.header ?_ (by decide +kernel)) (by decide +kernel))
    (emits_gauge (by decide +kernel) (by decide +kernel) r.requestsWaiting)
  refine .append (.header (.header ?_ (by decide +kernel)) (by decide +kernel))
    (emits_gauge (by decide +kernel) (by decide +kernel) r.requestsRunning)
  refine .append ?_ (histBlock_emits printed (by decide +kernel) (by decide +kernel) r.overhead)
  refine .append ?_ (histBlock_emits printed (by decide +kernel) (by decide +kernel) r.queue)
  refine .append ?_ (histBlock_emits printed (by decide +kernel) (by decide +kernel) r.e2e)
  refine .append ?_ (histBlock_emits printed (by decide +kernel) (by decide +kernel) r.itl)
  exact histBlock_emits printed (by decide +kernel) (by decide +kernel) r.ttft

theorem expose_reads (printed : Printed print) (r : Registry Float) :
    readExposition (expose print r) = some (samples (fmtDouble print) r) := by
  have read := expose_emits printed r []
  rw [List.append_nil] at read
  rw [read]
  simp [readExposition,isComment]

theorem pairs_injective (same : pairs l = pairs l') : l = l' := by
  cases l
  cases l'
  simp_all [pairs]

theorem exposition_faithful (print : Float → Bytes) (printed : Printed print) :
    (∀ l, newline ∉ labelStr l ∧ readLabels (labelStr l) = some (pairs l,[])) ∧
    (∀ l le, Bound print le → newline ∉ withLe (labelStr l) le ∧
      readLabels (withLe (labelStr l) le) = some (pairs l ++ [(text "le",le)],[])) ∧
    (∀ l l' name name' value value', MetricName name → MetricName name' →
      name ++ labelStr l ++ text " " ++ value = name' ++ labelStr l' ++ text " " ++ value' → name = name' ∧ l = l') ∧
    (∀ l l' le le' name name' value value', Bound print le → Bound print le' → MetricName name → MetricName name' →
      name ++ withLe (labelStr l) le ++ text " " ++ value = name' ++ withLe (labelStr l') le' ++ text " " ++ value' →
        name = name' ∧ l = l' ∧ le = le') ∧
    ∀ r, readExposition (expose print r) = some (samples (fmtDouble print) r) := by
  refine ⟨fun l => ⟨(labelStr_labelled l).1,?_⟩,fun l le bound => ⟨(withLe_labelled printed bound l).1,?_⟩,?_,?_,
    expose_reads printed⟩
  · have read := readLabels_text (written_reads l .nil) (by simp [writtenPairs]) []
    simpa only [labelStr_text,List.append_nil] using read
  · have read := readLabels_text (withLe_reads printed bound l) (by simp [writtenPairs]) []
    simpa only [withLe_text,List.append_nil] using read
  · intro l l' name name' value value' named named' same
    rw [List.append_assoc,List.append_assoc (name' ++ _)] at same
    obtain ⟨metric,labels⟩ := labelled_unique (labelStr_labelled l) (labelStr_labelled l') named named' same
    exact ⟨metric,pairs_injective labels⟩
  · intro l l' le le' name name' value value' bound bound' named named' same
    rw [List.append_assoc,List.append_assoc (name' ++ _)] at same
    obtain ⟨metric,labels⟩ :=
      labelled_unique (withLe_labelled printed bound l) (withLe_labelled printed bound' l') named named' same
    obtain ⟨own,last⟩ := List.append_inj' labels rfl
    cases last
    exact ⟨metric,pairs_injective own,rfl⟩

def hostile : Labels := ⟨text "a\"\x7d 1\n",text "b\\",text "c,le=\"2\""⟩

theorem exposition_faithful_hostile :
    labelStr hostile = text "\x7broute=\"a\\\"\x7d 1\\n\",backend=\"b\\\\\",model=\"c,le=\\\"2\\\"\"\x7d" ∧
    readLabels (labelStr hostile) = some (pairs hostile,[]) ∧
    readLabels (withLe (labelStr hostile) (text "+Inf")) = some (pairs hostile ++ [(text "le",text "+Inf")],[]) ∧
    readExposition (expose (fun _ => text "0")
        {Registry.create [] [] [] with backendFailures := [(hostile,3)],requestsTotal := [(text "200\n",1)]}) =
      some (samples (fmtDouble fun _ => text "0")
        {Registry.create [] [] [] with backendFailures := [(hostile,3)],requestsTotal := [(text "200\n",1)]}) := by
  have zero : ∀ c ∈ text "0", c ∈ text "+-.0123456789aefin" := by decide +kernel
  have printed : Printed fun _ => text "0" := fun _ => zero
  obtain ⟨labels,buckets,_,_,whole⟩ := exposition_faithful (fun _ => text "0") printed
  exact ⟨by decide +kernel,(labels hostile).2,(buckets hostile _ (.inl rfl)).2,whole _⟩

end Lines
end Kvmux.Exposition
