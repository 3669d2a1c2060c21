import FrameEncoder.Proofs.Config.Negotiation
import Mathlib.Data.List.Nodup

/-!
# What a load reports

Loading always gives a configuration, so whatever it puts in for a document must be reported. For
every issue there is one condition on the document under which there is something to report. An
issue is reported once if its condition holds, and not at all otherwise: a field that a default
section lacks, a number of threads below zero in any section, a table that cannot be read, and
H.264 when it is taken out. Where H.264 is not asked for, nothing is reported of the tuning.
-/

namespace FrameEncoder

open Toml (Table Value)

/-- The type a tuning parameter has to have. -/
inductive FieldType where
  | text
  | integer
  | boolean
  /-- A number, an integer or not. -/
  | rate
deriving DecidableEq, Repr

/-- Whether a value has a type. -/
def FieldType.accepts (type : FieldType) (v : Value) : Bool :=
  match type with
  | text => v.string?.isSome
  | integer => v.integer?.isSome
  | boolean => v.boolean?.isSome
  | rate => (acceptRate v).isSome

/-- The parameters of an encoder, with their types. -/
def H264Encoder.fields : H264Encoder → List (String × FieldType)
  | x264 =>
    [("preset", .text), ("tune", .text), ("profile", .text), ("vbv_max_bitrate", .integer),
      ("vbv_buffer_size", .integer), ("fps_num", .integer), ("fps_den", .integer),
      ("threads", .integer)]
  | openH264 =>
    [("EnableFrameSkip", .boolean), ("TargetBitrate", .integer), ("MaxBitrate", .integer),
      ("MaxFrameRate", .rate)]

/-- Whether a section gives a field a value of its type. -/
def Toml.Table.gives (s : Table) (field : String × FieldType) : Bool :=
  (s.get? field.1).any field.2.accepts

section Gives

variable (s : Table) (name : String)

@[simp] theorem Toml.Table.gives_text : s.gives (name, .text) = (textField? s name).isSome :=
  (Option.isSome_bind ..).symm

@[simp] theorem Toml.Table.gives_integer :
    s.gives (name, .integer) = (integerField? s name).isSome :=
  (Option.isSome_bind ..).symm

@[simp] theorem Toml.Table.gives_boolean :
    s.gives (name, .boolean) = (booleanField? s name).isSome :=
  (Option.isSome_bind ..).symm

@[simp] theorem Toml.Table.gives_rate : s.gives (name, .rate) = (rateField? s name).isSome := by
  unfold Toml.Table.gives rateField?
  cases s.get? name with
  | none => rfl
  | some v => cases v <;> rfl

end Gives

/-- Whether a section gives an encoder a number of threads below zero. Only x264 has threads. -/
def Toml.Table.misleads (s : Table) (encoder : H264Encoder) : Bool :=
  encoder = .x264 && (integerField? s "threads").any (· < 0)

/-- The section of a class that an encoder is tuned by, if its table has a default section. -/
def Toml.Table.section? (doc : Table) (encoder : H264Encoder) (c : ConnectionClass) :
    Option Table :=
  (doc.tuning? encoder).bind fun t => t.table? c.sectionName

section Sections

variable {doc t base : Table} {encoder : H264Encoder} {c : ConnectionClass}

theorem Toml.Table.section?_of_table_none (ht : doc.table? encoder.name = none) :
    doc.section? encoder c = none := by
  rw [section?, tuning?, ht]
  rfl

theorem Toml.Table.section?_of_default_none (ht : doc.table? encoder.name = some t)
    (hbase : t.table? ConnectionClass.default.sectionName = none) :
    doc.section? encoder c = none := by
  rw [section?, tuning?, ht, Option.filter_some, hbase]
  rfl

theorem Toml.Table.section?_of_some (ht : doc.table? encoder.name = some t)
    (hbase : t.table? ConnectionClass.default.sectionName = some base) :
    doc.section? encoder c = t.table? c.sectionName := by
  rw [section?, tuning?, ht, Option.filter_some, hbase]
  rfl

end Sections

/-- Whether there is something to report of the table of an encoder. -/
def Toml.Table.WarrantsOf (doc : Table) (encoder : H264Encoder) : ConfigIssue → Prop
  | .tableMissing e => e = encoder ∧ doc.table? encoder.name = none
  | .sectionMissing e c => e = encoder ∧ c = .default ∧ ∃ t, doc.table? encoder.name = some t ∧
      t.table? ConnectionClass.default.sectionName = none
  | .fieldDefaulted e name => e = encoder ∧ ∃ base, doc.section? encoder .default = some base ∧
      ∃ type, (name, type) ∈ encoder.fields ∧ base.gives (name, type) = false
  | .invalidValue e c name => e = encoder ∧ name = "threads" ∧ c ∈ ConnectionClass.tuned ∧
      ∃ s, doc.section? encoder c = some s ∧ s.misleads encoder = true
  | _ => False

/-- Whether there is something to report of a document. -/
def Toml.Table.Warrants (doc : Table) (i : ConfigIssue) : Prop :=
  match i with
  | .codecOrderMissing => doc.recognisedCodecs = []
  | .h264EncoderInvalid name => doc.namedEncoder? = none ∧ name = namedEncoder doc
  | .h264Disabled encoder => doc.LacksTuning ∧ encoder = doc.selectedEncoder
  | _ => .h264 ∈ doc.requestedCodecs ∧ ∃ encoder, doc.WarrantsOf encoder i

/-- Whether issues are those with a property, each of them once. -/
structure Reports (issues : List ConfigIssue) (W : ConfigIssue → Prop) : Prop where
  nodup : issues.Nodup
  mem_iff : ∀ i, i ∈ issues ↔ W i

namespace Reports

variable {xs ys : List ConfigIssue} {V W : ConfigIssue → Prop}

/-- Issues with one property and issues with another that excludes it. -/
theorem append (hx : Reports xs V) (hy : Reports ys W) (h : ∀ i, V i → ¬ W i) :
    Reports (xs ++ ys) fun i => V i ∨ W i where
  nodup := hx.nodup.append hy.nodup fun i hi hj => h i ((hx.mem_iff i).mp hi) ((hy.mem_iff i).mp hj)
  mem_iff i := by rw [List.mem_append, hx.mem_iff, hy.mem_iff]

/-- An issue that is there under a condition. -/
theorem ite (P : Prop) [Decidable P] (i : ConfigIssue) :
    Reports (if P then [i] else []) fun j => P ∧ j = i := by
  split
  · next hP => exact ⟨List.nodup_singleton i, fun j => by simp [hP]⟩
  · next hP => exact ⟨List.nodup_nil, fun j => by simp [hP]⟩

/-- A single issue. -/
theorem singleton (i : ConfigIssue) : Reports [i] (· = i) :=
  ⟨List.nodup_singleton i, fun _ => List.mem_singleton⟩

/-- The issues of some classes, where no issue is of two classes. -/
theorem flatMap {cs : List ConnectionClass} (hcs : cs.Nodup)
    {f : ConnectionClass → List ConfigIssue} {W : ConnectionClass → ConfigIssue → Prop}
    (hf : ∀ c, Reports (f c) (W c)) (hW : ∀ c d i, W c i → W d i → c = d) :
    Reports (cs.flatMap f) fun i => ∃ c ∈ cs, W c i where
  nodup := by
    refine List.nodup_flatMap.mpr ⟨fun c _ => (hf c).nodup, hcs.imp fun {c d} hne i hc hd => ?_⟩
    exact hne (hW c d i (((hf c).mem_iff i).mp hc) (((hf d).mem_iff i).mp hd))
  mem_iff i := by simp only [List.mem_flatMap, (hf _).mem_iff]

/-- Issues whose property is put another way. -/
theorem congr (hx : Reports xs V) (h : ∀ i, V i ↔ W i) : Reports xs W :=
  ⟨hx.nodup, fun i => (hx.mem_iff i).trans (h i)⟩

/-- An issue with the property is there once, any other is not. -/
theorem count_eq (hx : Reports xs W) (i : ConfigIssue) :
    (W i → xs.count i = 1) ∧ (¬ W i → xs.count i = 0) :=
  ⟨fun hW => List.count_eq_one_of_mem hx.nodup ((hx.mem_iff i).mpr hW),
    fun hW => List.count_eq_zero.mpr (mt (hx.mem_iff i).mp hW)⟩

end Reports

/-- No two fields of an encoder have one name. -/
theorem H264Encoder.nodup_fields (e : H264Encoder) : (e.fields.map Prod.fst).Nodup := by
  cases e <;> decide

/-- The issues of the section of a class. -/
def Toml.Table.issuesIn (s : Table) (encoder : H264Encoder) (c : ConnectionClass) :
    List ConfigIssue :=
  missingIssues encoder c (encoder.fields.map fun f => (f.1, s.gives f)) ++
    if s.misleads encoder then [.invalidValue encoder c "threads"] else []

/-- What there is to report of the section of a class. -/
def Toml.Table.WarrantsIn (s : Table) (encoder : H264Encoder) (c : ConnectionClass)
    (i : ConfigIssue) : Prop :=
  (∃ field ∈ encoder.fields, c = .default ∧ s.gives field = false ∧
    i = .fieldDefaulted encoder field.1) ∨
  (s.misleads encoder = true ∧ i = .invalidValue encoder c "threads")

/-- The issues of the fields that a section lacks. -/
theorem reports_missingIssues (s : Table) (encoder : H264Encoder) (c : ConnectionClass) :
    Reports (missingIssues encoder c (encoder.fields.map fun f => (f.1, s.gives f))) fun i =>
      ∃ field ∈ encoder.fields, c = .default ∧ s.gives field = false ∧
        i = .fieldDefaulted encoder field.1 := by
  have hlacked : ((encoder.fields.map fun f => (f.1, s.gives f)).filter fun f => !f.2).map
      (fun f => ConfigIssue.fieldDefaulted encoder f.1) =
      ((encoder.fields.filter fun f => !s.gives f).map Prod.fst).map (.fieldDefaulted encoder) := by
    rw [List.filter_map, List.map_map, List.map_map]
    rfl
  have hnames : ((encoder.fields.filter fun f => !s.gives f).map Prod.fst).Nodup :=
    (List.filter_sublist.map Prod.fst).nodup encoder.nodup_fields
  unfold missingIssues
  split
  · next hc =>
    rw [hlacked]
    refine ⟨hnames.map fun a b h => (ConfigIssue.fieldDefaulted.inj h).2, fun i => ?_⟩
    simp only [List.mem_map, List.mem_filter, Bool.not_eq_true', exists_exists_and_eq_and]
    constructor
    · rintro ⟨field, ⟨hfield, hlacks⟩, rfl⟩
      exact ⟨field, hfield, hc, hlacks, rfl⟩
    · rintro ⟨field, hfield, -, hlacks, rfl⟩
      exact ⟨field, ⟨hfield, hlacks⟩, rfl⟩
  · next hc =>
    exact ⟨List.nodup_nil, fun i => by simp [hc]⟩

/-- The issues of a section are those there are to report of it. -/
theorem reports_issuesIn (s : Table) (encoder : H264Encoder) (c : ConnectionClass) :
    Reports (s.issuesIn encoder c) (s.WarrantsIn encoder c) :=
  (reports_missingIssues s encoder c).append (.ite _ _) fun i hfield hthreads => by
    obtain ⟨field, -, -, -, rfl⟩ := hfield
    exact ConfigIssue.noConfusion hthreads.2

/-- What there is to report of a section tells its class. -/
theorem Toml.Table.WarrantsIn.class_unique {s t : Table} {encoder : H264Encoder}
    {c d : ConnectionClass} {i : ConfigIssue} (hs : s.WarrantsIn encoder c i)
    (ht : t.WarrantsIn encoder d i) : c = d := by
  obtain ⟨field, -, hc, -, rfl⟩ | ⟨-, rfl⟩ := hs
  · obtain ⟨_, -, hd, -, -⟩ | ⟨-, h⟩ := ht
    · exact hc.trans hd.symm
    · cases h
  · obtain ⟨_, -, -, -, h⟩ | ⟨-, h⟩ := ht
    · cases h
    · exact (ConfigIssue.invalidValue.inj h).2.1

/-- The fields that are missing in two lists of fields. -/
theorem missingIssues_append (encoder : H264Encoder) (c : ConnectionClass)
    (xs ys : List (String × Bool)) :
    missingIssues encoder c (xs ++ ys) =
      missingIssues encoder c xs ++ missingIssues encoder c ys := by
  unfold missingIssues
  split
  · rw [List.filter_append, List.map_append]
  · rfl

/-- The number of threads of a section is reported as missing, as below zero or not at all. -/
theorem threadsIssues_eq (s : Table) (c : ConnectionClass) :
    threadsIssues (integerField? s "threads") c =
      missingIssues .x264 c [("threads", s.gives ("threads", .integer))] ++
        if s.misleads .x264 then [.invalidValue .x264 c "threads"] else [] := by
  rw [Toml.Table.gives_integer]
  unfold threadsIssues Toml.Table.misleads
  cases integerField? s "threads" with
  | none => simp
  | some n => simp [missingIssues]

namespace TableReader

variable {P : Type} {R : TableReader P}

/-- Whether a reader reports of a section what there is to report of it. -/
def IsThorough (R : TableReader P) : Prop :=
  ∀ s c inherited, (R.read s c inherited).issues = s.issuesIn R.encoder c

theorem isThorough_x264Reader : x264Reader.IsThorough := by
  intro s c inherited
  show missingIssues .x264 c _ ++ threadsIssues _ c = s.issuesIn .x264 c
  rw [threadsIssues_eq, ← List.append_assoc, ← missingIssues_append]
  simp [Toml.Table.issuesIn, H264Encoder.fields]

theorem isThorough_openH264Reader : openH264Reader.IsThorough := by
  intro s c inherited
  show missingIssues .openH264 c _ = s.issuesIn .openH264 c
  simp [Toml.Table.issuesIn, H264Encoder.fields, Toml.Table.misleads]

/-- What a thorough reader reports of a table with a default section is what it reports of the
sections of the tuned classes. -/
theorem IsThorough.issues_readSections (hR : R.IsThorough) {t base : Table}
    (hbase : t.table? ConnectionClass.default.sectionName = some base) :
    (R.readSections t (R.read base .default R.constants)).issues =
      ConnectionClass.tuned.flatMap fun c =>
        ((t.table? c.sectionName).map fun s => s.issuesIn R.encoder c).getD [] := by
  show ConnectionClass.tuned.flatMap (fun c => SectionReading.issues (if c = .default
    then R.read base .default R.constants
    else R.readSection t (R.read base .default R.constants).params c)) = _
  refine congrArg (List.flatMap · _) (funext fun c => ?_)
  split
  · next hc =>
    rw [hc, hbase, hR]
    rfl
  · unfold readSection
    cases t.table? c.sectionName with
    | none => rfl
    | some s => exact hR ..

/-- What there is to report of the sections of a table is what there is to report of the table. -/
theorem reports_sections {doc t base : Table} {encoder : H264Encoder}
    (ht : doc.table? encoder.name = some t)
    (hbase : t.table? ConnectionClass.default.sectionName = some base) :
    Reports (ConnectionClass.tuned.flatMap fun c =>
        ((t.table? c.sectionName).map fun s => s.issuesIn encoder c).getD [])
      (doc.WarrantsOf encoder) := by
  refine (Reports.flatMap (by decide)
    (W := fun c i => ∃ s, doc.section? encoder c = some s ∧ s.WarrantsIn encoder c i)
    (fun c => ?_) ?_).congr fun i => ?_
  · rw [← Table.section?_of_some ht hbase]
    cases hs : doc.section? encoder c with
    | none => exact ⟨List.nodup_nil, fun i => by simp⟩
    | some s => exact (reports_issuesIn s encoder c).congr fun i => by simp
  · rintro c d i ⟨s, -, hs⟩ ⟨u, -, hu⟩
    exact hs.class_unique hu
  · constructor
    · rintro ⟨c, hc, s, hs, ⟨field, hfield, rfl, hlacks, rfl⟩ | ⟨hthreads, rfl⟩⟩
      · exact ⟨rfl, s, hs, field.2, hfield, hlacks⟩
      · exact ⟨rfl, rfl, hc, s, hs, hthreads⟩
    · intro hi
      cases i with
      | tableMissing e => simp [Table.WarrantsOf, ht] at hi
      | sectionMissing e c => simp [Table.WarrantsOf, ht, hbase] at hi
      | fieldDefaulted e name =>
        obtain ⟨rfl, s, hs, type, hfield, hlacks⟩ := hi
        exact ⟨.default, by decide, s, hs, .inl ⟨_, hfield, rfl, hlacks, rfl⟩⟩
      | invalidValue e c name =>
        obtain ⟨rfl, rfl, hc, s, hs, hthreads⟩ := hi
        exact ⟨c, hc, s, hs, .inr ⟨hthreads, rfl⟩⟩
      | _ => exact hi.elim

/-- What a thorough reader reports of a table is what there is to report of it. -/
theorem IsThorough.reports_readTable (hR : R.IsThorough) (doc : Table) :
    Reports (R.readTable doc).issues (doc.WarrantsOf R.encoder) := by
  unfold readTable
  cases ht : doc.table? R.encoder.name with
  | none =>
    refine (Reports.singleton _).congr fun i => ?_
    cases i <;> simp [Table.WarrantsOf, Table.section?_of_table_none ht, ht]
  | some t =>
    cases hbase : t.table? ConnectionClass.default.sectionName with
    | none =>
      simp only [hbase]
      refine (Reports.singleton _).congr fun i => ?_
      cases i <;> simp [Table.WarrantsOf, Table.section?_of_default_none ht hbase, ht, hbase]
    | some base =>
      simp only [hbase, hR.issues_readSections hbase]
      exact reports_sections ht hbase

end TableReader

/-- What there is to report of a table tells its encoder. -/
theorem Toml.Table.WarrantsOf.encoder_unique {doc : Table} {e e' : H264Encoder} {i : ConfigIssue}
    (h : doc.WarrantsOf e i) (h' : doc.WarrantsOf e' i) : e = e' := by
  cases i with
  | tableMissing | sectionMissing | fieldDefaulted | invalidValue => exact h.1.symm.trans h'.1
  | _ => exact h.elim

/-- There is something to report of the table of some encoder if there is of one of the two. -/
theorem Toml.Table.exists_warrantsOf_iff {doc : Table} {i : ConfigIssue} :
    (∃ e, doc.WarrantsOf e i) ↔ doc.WarrantsOf .x264 i ∨ doc.WarrantsOf .openH264 i := by
  constructor
  · rintro ⟨_ | _, h⟩
    · exact .inl h
    · exact .inr h
  · rintro (h | h)
    · exact ⟨_, h⟩
    · exact ⟨_, h⟩

/-- What is reported of the codecs and the encoder that a document names. -/
theorem reports_names (doc : Table) :
    Reports ((readCodecOrder doc).2 ++ (readEncoder doc).2) fun i =>
      doc.recognisedCodecs = [] ∧ i = .codecOrderMissing ∨
      doc.namedEncoder? = none ∧ i = .h264EncoderInvalid (namedEncoder doc) := by
  rw [(readCodecOrder_eq doc).2, readEncoder_eq]
  refine (Reports.ite _ _).append (.ite _ _) fun i horder hencoder => ?_
  exact ConfigIssue.noConfusion (horder.2.symm.trans hencoder.2)

/-- A document that asks for H.264 has the issues of its names, of both tables, and of H.264 if it
is taken out. -/
theorem issues_resolveDocument_of_mem {doc : Table} (h : .h264 ∈ doc.requestedCodecs) :
    (resolveDocument doc).issues = (readCodecOrder doc).2 ++ (readEncoder doc).2 ++
      (x264Reader.readTable doc).issues ++ (openH264Reader.readTable doc).issues ++
      if doc.LacksTuning then [.h264Disabled doc.selectedEncoder] else [] := by
  rw [resolveDocument_of_mem h]
  cases htuning : doc.tuning? doc.selectedEncoder with
  | none => simp [Table.LacksTuning, h, htuning]
  | some t => simp [Table.LacksTuning, htuning]

/-- What a document resolves to reports what there is to report of it. -/
theorem reports_resolveDocument (doc : Table) :
    Reports (resolveDocument doc).issues doc.Warrants := by
  by_cases hh264 : Codec.h264 ∈ doc.requestedCodecs
  · have hnames := reports_names doc
    have hx264 := TableReader.isThorough_x264Reader.reports_readTable doc
    have hopen := TableReader.isThorough_openH264Reader.reports_readTable doc
    rw [issues_resolveDocument_of_mem hh264]
    refine (((hnames.append hx264 ?_).append hopen ?_).append (.ite _ _) ?_).congr fun i => ?_
    · rintro i (⟨-, rfl⟩ | ⟨-, rfl⟩) h <;> exact h
    · rintro i ((⟨-, rfl⟩ | ⟨-, rfl⟩) | h) h'
      · exact h'
      · exact h'
      · exact H264Encoder.noConfusion (h.encoder_unique h')
    · rintro i h ⟨-, rfl⟩
      obtain ((⟨-, h⟩ | ⟨-, h⟩) | h) | h := h <;> cases h
    · show ((_ ∨ doc.WarrantsOf .x264 i) ∨ doc.WarrantsOf .openH264 i) ∨ _ ↔ _
      rw [or_assoc (c := doc.WarrantsOf .openH264 i), ← Table.exists_warrantsOf_iff]
      cases i <;> simp [Table.Warrants, Table.WarrantsOf, hh264]
  · rw [resolveDocument_of_not_mem hh264]
    refine (reports_names doc).congr fun i => ?_
    cases i <;> simp [Table.Warrants, hh264, Table.LacksTuning]

/-- H.264 is reported as taken out exactly if it is asked for and not in the order. -/
theorem h264Disabled_mem_issues_iff (doc : Table) :
    (∃ e, .h264Disabled e ∈ (resolveDocument doc).issues) ↔
      .h264 ∈ doc.requestedCodecs ∧ .h264 ∉ (resolveDocument doc).config.codecOrder.codecs := by
  simp only [(reports_resolveDocument doc).mem_iff, (answers_resolveDocument doc).codecs_eq]
  show (∃ e, doc.LacksTuning ∧ e = doc.selectedEncoder) ↔ _
  by_cases hlacks : doc.LacksTuning
  · simp [hlacks, hlacks.1]
  · simp [hlacks]

/-- Whatever document is resolved, and whatever text reads as it, however texts are read: an issue
is reported once if there is that to report, and else not at all, and H.264 is reported as taken out
exactly if it is asked for and not in the order. -/
theorem reportsOnce_load (doc : Table) :
    (∀ i, (doc.Warrants i → (resolveDocument doc).issues.count i = 1) ∧
      (¬ doc.Warrants i → (resolveDocument doc).issues.count i = 0)) ∧
    ((∃ e, .h264Disabled e ∈ (resolveDocument doc).issues) ↔
      .h264 ∈ doc.requestedCodecs ∧ .h264 ∉ (resolveDocument doc).config.codecOrder.codecs) ∧
    ∀ (read? : String → Option Table) (text : String), read? text = some doc →
      (GfxLoad.ofText read? text).issues = (resolveDocument doc).issues := by
  refine ⟨fun i => (reports_resolveDocument doc).count_eq i, h264Disabled_mem_issues_iff doc,
    fun read? text htext => ?_⟩
  rw [GfxLoad.ofText_eq htext]

/-- Without a default section of x264, a number of threads below zero is not reported. -/
example :
    let t : Table := [("default", .table [("EnableFrameSkip", .integer 1),
      ("TargetBitrate", .integer 5), ("MaxBitrate", .integer 6), ("MaxFrameRate", .integer 7)])]
    let doc : Table := [("codec", .table [("order", .array [.string "H264"]),
      ("h264_encoder", .string "openh264")]), ("OpenH264", .table t),
      ("x264", .table [("lan", .table [("threads", .integer (-1))])])]
    (resolveDocument doc).issues =
      [.sectionMissing .x264 .default, .fieldDefaulted .openH264 "EnableFrameSkip"] := by
  decide +kernel

end FrameEncoder
