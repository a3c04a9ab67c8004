import PlaybookRunner.Proofs.JsonText
import PlaybookRunner.Proofs.PlaybookTrees
import PlaybookRunner.Report.Chunk

/-!
# The stream of chunks

Every event is two lines of the stream: the size of its body and the body, in
which no line breaks. What is read of a stream are its events, and what is read
of the beginning of a stream, if anything, are the first of them.
-/

namespace PlaybookRunner

namespace Text

theorem splitAtChar_ne_nil (sep : Char) (cs : List Char) : splitAtChar sep cs ≠ [] := by
  cases cs with
  | nil => exact List.cons_ne_nil _ _
  | cons c cs =>
    rw [splitAtChar]
    split
    · exact List.cons_ne_nil _ _
    · split <;> exact List.cons_ne_nil _ _

theorem splitAtChar_of_notMem {sep : Char} {cs : List Char} (h : sep ∉ cs) :
    splitAtChar sep cs = [cs] := by
  induction cs with
  | nil => rfl
  | cons c cs ih =>
    obtain ⟨hc, hcs⟩ := not_or.mp (mt List.mem_cons.mpr h)
    rw [splitAtChar, if_neg (Ne.symm hc), ih hcs]

theorem splitAtChar_append_cons {sep : Char} {cs : List Char} (h : sep ∉ cs) (rest : List Char) :
    splitAtChar sep (cs ++ sep :: rest) = cs :: splitAtChar sep rest := by
  induction cs with
  | nil => rw [List.nil_append, splitAtChar, if_pos rfl]
  | cons c cs ih =>
    obtain ⟨hc, hcs⟩ := not_or.mp (mt List.mem_cons.mpr h)
    rw [List.cons_append, splitAtChar, if_neg (Ne.symm hc), ih hcs]

theorem dropReturn_of_notMem {line : List Char} (h : '\r' ∉ line) : dropReturn line = line := by
  refine if_neg fun hlast => h (List.mem_of_getLast? ?_)
  simpa using hlast

/-- A printed line before a line feed is the first line. -/
theorem lines_append_cons {cs : List Char} (h : Printed cs) (rest : List Char) :
    lines (String.ofList (cs ++ '\n' :: rest)) =
      String.ofList cs :: lines (String.ofList rest) := by
  have hfeed : '\n' ∉ cs := fun hmem => absurd (h _ hmem) (by decide)
  have hreturn : '\r' ∉ cs := fun hmem => absurd (h _ hmem) (by decide)
  rw [lines, lines, String.toList_ofList, String.toList_ofList, splitAtChar_append_cons hfeed,
    List.reverse_cons]
  cases hparts : (splitAtChar '\n' rest).reverse with
  | nil => exact absurd (List.reverse_eq_nil_iff.mp hparts) (splitAtChar_ne_nil _ _)
  | cons last before => simp [dropReturn_of_notMem hreturn]

/-- A printed text without line feed is its only line. -/
theorem lines_of_printed {cs : List Char} (h : Printed cs) :
    lines (String.ofList cs) = if cs.isEmpty then [] else [String.ofList cs] := by
  have hfeed : '\n' ∉ cs := fun hmem => absurd (h _ hmem) (by decide)
  rw [lines, String.toList_ofList, splitAtChar_of_notMem hfeed]
  cases cs <;> rfl

end Text

namespace Chunk

open Text

/-- The values of the event are plain and its duration is finite. -/
def plain : Chunk → Bool
  | start _ => true
  | finish => true
  | startHandlers => true
  | finishHandlers => true
  | startTask _ _ _ _ vars delta => (Value.map vars).plain && delta.isFinite
  | finishTask delta result => (Value.map result.data).plain && delta.isFinite

/-- The text of some events. -/
def stream (events : List Chunk) : String := String.join (events.map framed)

/-- The texts of the tree and of the time of an event are read back as what they were. -/
structure Faithful (c : Chunk) : Prop where
  tree : Json.read? c.toJson.compact = some c.toJson
  time : ∀ t, c = start t → Moment.read? t.text = some t

open Json in
theorem faithful_of_legible {c : Chunk} (htree : Legible 127 c.toJson)
    (htime : ∀ t, c = start t → Moment.read? t.text = some t) : c.Faithful :=
  ⟨read?_compact htree, htime⟩

theorem ofJson?_phase {phase : String} {fields : Dict Json}
    (hkeys : ("phase" :: fields.keys).Nodup) :
    ofJson? (.object (("phase", .string phase) :: fields)) = ofRecord? phase (.object fields) := by
  have hfields : fields.filter (fun p => p.1 != "phase") = fields := by
    refine List.filter_eq_self.mpr fun p hp => ?_
    have hne : p.1 ≠ "phase" := by
      intro heq
      exact (List.nodup_cons.mp hkeys).1 (heq ▸ List.mem_map.mpr ⟨p, hp, rfl⟩)
    simpa using hne
  have hparts : (Json.object (("phase", .string phase) :: fields)).parts? ["phase"] =
      some (("phase", .string phase) :: fields) := Json.parts?_of_nodup ["phase"] hkeys
  rw [ofJson?, hparts]
  simp [Json.required?, Dict.get?, Json.text?, hfields]

theorem resultOf?_toRecord {r : TaskResult} (hdata : (Value.map r.data).plain = true) :
    resultOf? r.toRecord = some r := by
  have hread : Vars.ofJson? (.object (Value.fieldsToRecord r.data)) = some r.data :=
    (Json.Recovers.vars hdata).written
  have hkeys : ["changed", "failed", "data"].Nodup := by decide
  change resultOf? (.object [("changed", .bool r.changed), ("failed", .bool r.failed),
    ("data", .object (Value.fieldsToRecord r.data))]) = some r
  rw [resultOf?, Json.parts?_of_nodup _ (by exact hkeys)]
  simp [Json.required?, Json.optional?, Dict.get?, List.lookup, Json.bool?, hread]

theorem ofJson?_toJson {c : Chunk} (hplain : c.plain = true)
    (htime : ∀ t, c = start t → Moment.read? t.text = some t) : ofJson? c.toJson = some c := by
  have hkeys : ("phase" :: Dict.keys c.fields).Nodup := by
    cases c <;> simp [fields, Dict.keys]
  rw [toJson, ofJson?_phase hkeys]
  have hparts (names : List String) : (Json.object c.fields).parts? names = some c.fields :=
    Json.parts?_of_nodup names (List.nodup_cons.mp hkeys).2
  cases c with
  | start time =>
    simp only [phase, ofRecord?, hparts, Option.bind_some]
    simp [fields, startOf?, Json.required?, Dict.get?, Json.text?, htime time rfl]
  | finish => rfl
  | startHandlers => rfl
  | finishHandlers => rfl
  | startTask deferred name command args vars delta =>
    have hvars : Vars.ofJson? (Value.map vars).toRecord = some vars :=
      (Json.Recovers.vars (Bool.and_eq_true_iff.mp hplain).1).written
    have hkind : kindOf? (.string (kindWord deferred)) = some deferred := by cases deferred <;> rfl
    simp only [phase, ofRecord?, hparts, Option.bind_some]
    simp [fields, startTaskOf?, Json.required?, Dict.get?, List.lookup, Json.text?, numberOf?,
      hkind, hvars]
  | finishTask delta result =>
    have hresult := resultOf?_toRecord (Bool.and_eq_true_iff.mp hplain).1
    simp only [phase, ofRecord?, hparts, Option.bind_some]
    simp [fields, finishTaskOf?, Json.required?, Dict.get?, List.lookup, numberOf?, hresult]

/-! ## Lines of the stream -/

/-- The line before the body of an event. -/
def sizeChars (c : Chunk) : List Char := Nat.toDigits 10 c.toJson.compact.utf8ByteSize

theorem toList_stream_cons (c : Chunk) (events : List Chunk) :
    (stream (c :: events)).toList =
      c.sizeChars ++ '\n' :: (c.toJson.chars ++ '\n' :: (stream events).toList) := by
  have hbody : c.toJson.compact.toList = c.toJson.chars := String.toList_ofList
  have hbreak : "\n".toList = ['\n'] := rfl
  simp [stream, framed, sizeChars, hbody, hbreak]

theorem printed_sizeChars (c : Chunk) : Printed c.sizeChars := Decimal.printed_toDigits _

theorem not_allBlank_sizeChars {c : Chunk} {p : List Char} (hbegins : p <+: c.sizeChars)
    (hp : p ≠ []) : allBlank p = false := by
  obtain ⟨d, hd⟩ := List.exists_mem_of_ne_nil p hp
  have hdigit := Nat.isDigit_of_mem_toDigits (by decide) (by decide) (hbegins.subset hd)
  have hblank := Token.isBlank_of_isWordChar (Token.isWordChar_of_isDigit hdigit)
  exact List.all_eq_false.mpr ⟨d, hd, by simp [hblank]⟩

theorem readLines_cons {size : String} (hsize : allBlank size.toList = false) (body : String)
    (rest : List String) :
    readLines (size :: body :: rest) =
      ((Json.read? body).bind ofJson?).bind fun c => (readLines rest).map (c :: ·) := by
  rw [readLines, hsize]
  simp only [Bool.false_eq_true, if_false, Option.bind_eq_bind, Option.pure_def, Option.map_eq_bind]
  rfl

theorem readLines_size {size : String} (hsize : allBlank size.toList = false) :
    readLines [size] = none := by
  rw [readLines, hsize]
  rfl

section

variable (c : Chunk)

theorem not_allBlank_sizeLine : allBlank (String.ofList c.sizeChars).toList = false := by
  rw [String.toList_ofList]
  exact not_allBlank_sizeChars (List.prefix_refl _) Nat.toDigits_ne_nil

/-- An event is read, and what follows its two lines. -/
theorem readAll?_frame (rest : List Char) :
    readAll? (String.ofList (c.sizeChars ++ '\n' :: (c.toJson.chars ++ '\n' :: rest))) =
      ((Json.read? c.toJson.compact).bind ofJson?).bind fun d =>
        (readAll? (String.ofList rest)).map (d :: ·) := by
  rw [readAll?, lines_append_cons (printed_sizeChars c),
    lines_append_cons (Json.printed_chars c.toJson), readLines_cons (not_allBlank_sizeLine c)]
  rfl

/-- A stream that ends in the line after a size. -/
theorem readAll?_openFrame {body : List Char} (hbody : Printed body) :
    readAll? (String.ofList (c.sizeChars ++ '\n' :: body)) =
      if body.isEmpty then none
      else ((Json.read? (String.ofList body)).bind ofJson?).map fun d => [d] := by
  rw [readAll?, lines_append_cons (printed_sizeChars c), lines_of_printed hbody]
  split
  next => exact readLines_size (not_allBlank_sizeLine c)
  next =>
    rw [readLines_cons (not_allBlank_sizeLine c), Option.map_eq_bind]
    rfl

/-- A stream that ends in the line of a size. -/
theorem readAll?_openSize {size : List Char} (hbegins : size <+: c.sizeChars) (hsize : size ≠ []) :
    readAll? (String.ofList size) = none := by
  have hprinted := (printed_sizeChars c).subset hbegins.subset
  have hline : allBlank (String.ofList size).toList = false := by
    rw [String.toList_ofList]
    exact not_allBlank_sizeChars hbegins hsize
  rw [readAll?, lines_of_printed hprinted, if_neg (by simpa using hsize), readLines_size hline]

end

theorem read?_openBody {c : Chunk} (htree : Json.read? c.toJson.compact = some c.toJson)
    {body : List Char} (hbegins : body <+: c.toJson.chars) (hopen : body ≠ c.toJson.chars) :
    Json.read? (String.ofList body) = none := by
  obtain ⟨missing, hwhole⟩ := hbegins
  have hchars : c.toJson.chars = '{' :: Json.fieldChars (("phase", .string c.phase) :: c.fields) ++
      ['}'] := rfl
  have hmissing : missing ≠ [] := by
    rintro rfl
    exact hopen (by rw [← hwhole, List.append_nil])
  refine Json.read?_unfinished (m := missing) ?_ ?_ ?_
  · cases body with
    | nil => simp
    | cons d body =>
      rw [hchars, List.cons_append, List.cons_append, List.cons.injEq] at hwhole
      simp [hwhole.1]
  · rw [← List.getLast?_append_of_ne_nil body hmissing, hwhole, hchars, List.getLast?_concat]
  · rw [hwhole, ← Json.compact, htree]
    rfl

theorem readAll?_stream {events : List Chunk} (hplain : ∀ c ∈ events, c.plain = true)
    (hfaithful : ∀ c ∈ events, c.Faithful) : readAll? (stream events) = some events := by
  induction events with
  | nil => rfl
  | cons c events ih =>
    obtain ⟨hc, hplain⟩ := List.forall_mem_cons.mp hplain
    obtain ⟨⟨htree, htime⟩, hfaithful⟩ := List.forall_mem_cons.mp hfaithful
    rw [← String.ofList_toList (s := stream (c :: events)), toList_stream_cons, readAll?_frame,
      htree, Option.bind_some, ofJson?_toJson hc htime, Option.bind_some, String.ofList_toList,
      ih hplain hfaithful]
    rfl

theorem lines_stream (events : List Chunk) :
    Text.lines (stream events) =
      events.flatMap fun c => [toString c.toJson.compact.utf8ByteSize, c.toJson.compact] := by
  induction events with
  | nil => rfl
  | cons c events ih =>
    rw [← String.ofList_toList (s := stream (c :: events)), toList_stream_cons,
      lines_append_cons (printed_sizeChars c), lines_append_cons (Json.printed_chars c.toJson),
      String.ofList_toList, ih]
    rfl

/-- A beginning of two parts ends in the first of them, or goes on in the second. -/
theorem prefix_append_cases {p as bs : List Char} (h : p <+: as ++ bs) :
    p <+: as ∨ ∃ q, p = as ++ q ∧ q <+: bs := by
  rcases List.prefix_or_prefix_of_prefix h (List.prefix_append as bs) with hp | ⟨q, rfl⟩
  · exact .inl hp
  · exact .inr ⟨q, rfl, (List.prefix_append_right_inj as).mp h⟩

theorem readAll?_beginning {events : List Chunk} (hplain : ∀ c ∈ events, c.plain = true)
    (hfaithful : ∀ c ∈ events, c.Faithful) {p : List Char} (hp : p <+: (stream events).toList) :
    readAll? (String.ofList p) = none ∨
      ∃ n, readAll? (String.ofList p) = some (events.take n) := by
  induction events generalizing p with
  | nil =>
    obtain rfl : p = [] := List.prefix_nil.mp hp
    exact .inr ⟨0, rfl⟩
  | cons c events ih =>
    obtain ⟨hc, hplain⟩ := List.forall_mem_cons.mp hplain
    obtain ⟨⟨htree, htime⟩, hfaithful⟩ := List.forall_mem_cons.mp hfaithful
    have hread : (Json.read? c.toJson.compact).bind ofJson? = some c := by
      rw [htree, Option.bind_some, ofJson?_toJson hc htime]
    -- The body may be there in full although the line feed after it is missing.
    have hbody : readAll? (String.ofList (c.sizeChars ++ '\n' :: c.toJson.chars)) =
        some ((c :: events).take 1) := by
      rw [readAll?_openFrame c (Json.printed_chars c.toJson), ← Json.compact, hread]
      rfl
    rw [toList_stream_cons] at hp
    -- The beginning ends in the size, after it, in the body, after it, or in what follows.
    rcases prefix_append_cases hp with hsize | ⟨q, rfl, hq⟩
    · by_cases hempty : p = []
      · subst hempty
        exact .inr ⟨0, rfl⟩
      · exact .inl (readAll?_openSize c hsize hempty)
    rcases List.prefix_cons_iff.mp hq with rfl | ⟨t, rfl, ht⟩
    · rw [List.append_nil]
      exact .inl (readAll?_openSize c (List.prefix_refl _) Nat.toDigits_ne_nil)
    rcases prefix_append_cases ht with hopen | ⟨u, rfl, hu⟩
    · by_cases hwhole : t = c.toJson.chars
      · rw [hwhole]
        exact .inr ⟨1, hbody⟩
      · rw [readAll?_openFrame c ((Json.printed_chars c.toJson).subset hopen.subset),
          read?_openBody htree hopen hwhole]
        exact .inl (ite_self none)
    rcases List.prefix_cons_iff.mp hu with rfl | ⟨v, rfl, hv⟩
    · rw [List.append_nil]
      exact .inr ⟨1, hbody⟩
    rw [readAll?_frame, hread, Option.bind_some]
    rcases ih hplain hfaithful hv with hnone | ⟨n, hsome⟩
    · exact .inl (by rw [hnone]; rfl)
    · exact .inr ⟨n + 1, by rw [hsome]; rfl⟩

/-- Every event is the line of the size of its body and its body, the events are read back from the
text of them, and from a beginning of the text, if anything, the first of them. -/
theorem stream_read_back {events : List Chunk} (hplain : ∀ c ∈ events, c.plain = true)
    (hfaithful : ∀ c ∈ events, c.Faithful) :
    Text.lines (stream events) =
        events.flatMap (fun c => [toString c.toJson.compact.utf8ByteSize, c.toJson.compact]) ∧
      readAll? (stream events) = some events ∧
      ∀ p : String, p.toList <+: (stream events).toList →
        readAll? p = none ∨ ∃ n, readAll? p = some (events.take n) := by
  refine ⟨lines_stream events, readAll?_stream hplain hfaithful, fun p hp => ?_⟩
  have hbegins := readAll?_beginning hplain hfaithful hp
  rwa [String.ofList_toList] at hbegins

open Json in
/-- Quotes, braces, line breaks and letters beyond ASCII occur in these events. -/
theorem stream_read_back_quoted :
    let started : Moment := { seconds := 1705314600, nanos := 500000 }
    let greet := startTask true "say \"hi\"\n" "debug" "msg=é\x7d"
      [("a\\\n", .list [.int (-3), .nil]), ("b", .string "\x7b\"phase\"")] 0.5
    let greeted :=
      finishTask 0.75 { changed := true, failed := false, data := [("\r\n", .float 1.5)] }
    let events := [start started, greet, greeted, finish]
    (∀ c ∈ events, c.plain = true) ∧ (∀ c ∈ events, c.Faithful) ∧
      Text.lines (stream events) =
        events.flatMap (fun c => [toString c.toJson.compact.utf8ByteSize, c.toJson.compact]) ∧
      readAll? (stream events) = some events ∧
      ∀ p : String, p.toList <+: (stream events).toList →
        readAll? p = none ∨ ∃ n, readAll? p = some (events.take n) := by
  intro started greet greeted events
  have hplain : ∀ c ∈ events, c.plain = true := by decide +kernel
  have hhalf : readNumber (floatText 0.5).toList = some (float 0.5, []) := rfl
  have hquarters : readNumber (floatText 0.75).toList = some (float 0.75, []) := rfl
  have hmore : readNumber (floatText 1.5).toList = some (float 1.5, []) := rfl
  have hfinite : Value.floatTree 1.5 = .float 1.5 := Value.floatTree_of_isFinite rfl
  have hstart : (start started).Faithful := by
    refine faithful_of_legible (by simp [toJson, fields]) fun t ht => ?_
    cases ht
    decide +kernel
  have hgreet : greet.Faithful := by
    refine faithful_of_legible ?_ (by simp [greet])
    simp [greet, toJson, fields, Value.toRecord, Value.fieldsToRecord, Value.itemsToRecord, hhalf]
    decide
  have hgreeted : greeted.Faithful := by
    refine faithful_of_legible ?_ (by simp [greeted])
    simp [greeted, toJson, fields, TaskResult.toRecord, TaskResult.toValue, Value.toRecord,
      Value.fieldsToRecord, hfinite, hquarters, hmore]
  have hfinish : finish.Faithful := faithful_of_legible (by simp [toJson, fields]) (by simp)
  have hfaithful : ∀ c ∈ events, c.Faithful := by
    simp [events, hstart, hgreet, hgreeted, hfinish]
  exact ⟨hplain, hfaithful, stream_read_back hplain hfaithful⟩

end Chunk

end PlaybookRunner
