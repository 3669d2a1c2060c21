import FrameEncoder.Proofs.Config.Lookup
import Mathlib.Data.List.Induction
import Mathlib.Data.List.Nodup

/-!
# The codecs that are negotiated

A document names codecs in an order, of which every known one counts at its first place; where it
names none, the order is H.264 before RFX. H.264 is taken out again if the selected encoder has no
default section to be tuned by, so an order that has H.264 comes with an encoder that was tuned.
Taking it out can leave an order without any codec: then there is nothing to offer.
-/

namespace FrameEncoder

open Toml (Table Value)

/-- Whether two names are the same but for the case of the letters from A to Z. -/
def SameLetters (a b : String) : Prop := a.toList.map Char.toLower = b.toList.map Char.toLower

instance (a b : String) : Decidable (SameLetters a b) := inferInstanceAs (Decidable (_ = _))

/-- Names are the same but for case if they are so in lower case. -/
theorem sameLetters_iff {a b : String} : SameLetters a b ↔ a.toLower = b.toLower := by
  show _ ↔ a.map Char.toLower = b.map Char.toLower
  rw [SameLetters, ← String.toList_inj, String.toList_map, String.toList_map]

/-- The codec a value names. -/
def Toml.Value.codec? : Value → Option Codec
  | .string name =>
    if SameLetters name "h264" ∨ SameLetters name "h.264" then some .h264
    else if SameLetters name "rfx" then some .rfx
    else none
  | _ => none

/-- The encoder a value names. -/
def Toml.Value.encoder? : Value → Option H264Encoder
  | .string name =>
    if SameLetters name H264Encoder.x264.name then some .x264
    else if SameLetters name H264Encoder.openH264.name then some .openH264
    else none
  | _ => none

/-- The codec of a name is the one its text names. -/
theorem Codec.ofName?_eq (name : String) : ofName? name = (Value.string name).codec? := by
  have h264 : "h264".toLower = "h264" := by decide +kernel
  have hdotted : "h.264".toLower = "h.264" := by decide +kernel
  have hrfx : "rfx".toLower = "rfx" := by decide +kernel
  simp only [ofName?, Value.codec?, sameLetters_iff, h264, hdotted, hrfx]
  split <;> simp_all

/-- The encoder of a name is the one its text names. -/
theorem H264Encoder.ofName?_eq (name : String) : ofName? name = (Value.string name).encoder? := by
  have hx264 : "x264".toLower = "x264" := by decide +kernel
  have hopen : "OpenH264".toLower = "openh264" := by decide +kernel
  simp only [ofName?, Value.encoder?, sameLetters_iff, H264Encoder.name, hx264, hopen]
  split <;> simp_all

/-- The codecs a document names in its order, in that order. -/
def Toml.Table.recognisedCodecs (doc : Table) : List Codec :=
  (((doc.table? "codec").bind fun t => t.accepted? "order" Value.array?).getD []).filterMap
    Value.codec?

/-- The codecs a document asks for, each at its first place: those it names, or the default order. -/
def Toml.Table.requestedCodecs (doc : Table) : List Codec :=
  if doc.recognisedCodecs = [] then [.h264, .rfx] else doc.recognisedCodecs.eraseDups

/-- The encoder a document names. -/
def Toml.Table.namedEncoder? (doc : Table) : Option H264Encoder :=
  (doc.table? "codec").bind fun t => t.accepted? "h264_encoder" Value.encoder?

/-- The encoder a document selects: the one it names, or x264. -/
def Toml.Table.selectedEncoder (doc : Table) : H264Encoder := doc.namedEncoder?.getD .x264

/-- Whether a document asks for H.264 without a default section to tune its selected encoder by. -/
def Toml.Table.LacksTuning (doc : Table) : Prop :=
  .h264 ∈ doc.requestedCodecs ∧ doc.tuning? doc.selectedEncoder = none

instance (doc : Table) : Decidable doc.LacksTuning := inferInstanceAs (Decidable (_ ∧ _))

/-- The named codecs are the recognised ones. -/
theorem namedCodecs_eq (doc : Table) : namedCodecs doc = doc.recognisedCodecs := by
  unfold namedCodecs Toml.Table.recognisedCodecs Toml.Table.accepted?
  rw [List.filterMap_filterMap]
  refine congrFun (congrArg List.filterMap (funext fun v => ?_)) _
  cases v with
  | string name => exact Codec.ofName?_eq name
  | _ => rfl

/-- The name of the encoder stands for the encoder that is named. -/
theorem bind_namedEncoder_eq (doc : Table) :
    (namedEncoder doc).bind H264Encoder.ofName? = doc.namedEncoder? := by
  unfold namedEncoder Toml.Table.namedEncoder? Toml.Table.accepted?
  rw [Option.bind_assoc]
  refine congrArg _ (funext fun t => ?_)
  rw [Option.bind_assoc]
  refine congrArg _ (funext fun v => ?_)
  cases v with
  | string name => exact H264Encoder.ofName?_eq name
  | _ => rfl

namespace CodecOrder

/-- One more codec goes to the end of an order that lacks it. -/
theorem ofList_concat (cs : List Codec) (c : Codec) :
    ofList (cs ++ [c]) = (ofList cs).pushOnce c := by
  simp [ofList]

/-- An order has each of the codecs it was made of at its first place. -/
theorem codecs_ofList (cs : List Codec) : (ofList cs).codecs = cs.eraseDups := by
  induction cs using List.reverseRecOn with
  | nil => rfl
  | append_singleton cs c ih =>
    have hcontains : (ofList cs).contains c = true ↔ c ∈ cs := by
      rw [contains, ih, List.contains_iff_mem, List.mem_eraseDups]
    rw [ofList_concat, List.eraseDups_append, pushOnce]
    by_cases hc : c ∈ cs
    · rw [if_pos (hcontains.mpr hc), ih]
      simp [List.removeAll, hc]
    · rw [if_neg (mt hcontains.mp hc), ih]
      simp [List.removeAll, hc, List.eraseDups_cons]

/-- No codec is in an order twice. -/
theorem nodup_ofList (cs : List Codec) : (ofList cs).codecs.Nodup := by
  induction cs using List.reverseRecOn with
  | nil => exact List.nodup_nil
  | append_singleton cs c ih =>
    rw [ofList_concat, pushOnce]
    split
    · exact ih
    · next hc =>
      rw [contains, List.contains_iff_mem] at hc
      exact List.concat_eq_append ▸ ih.concat hc

end CodecOrder

/-- The order that is read has the codecs asked for, and an issue if none is named. -/
theorem readCodecOrder_eq (doc : Table) :
    (readCodecOrder doc).1.codecs = doc.requestedCodecs ∧
      (readCodecOrder doc).2 = if doc.recognisedCodecs = [] then [.codecOrderMissing] else [] := by
  unfold readCodecOrder Toml.Table.requestedCodecs
  rw [namedCodecs_eq]
  cases doc.recognisedCodecs with
  | nil => exact ⟨rfl, rfl⟩
  | cons c cs => exact ⟨CodecOrder.codecs_ofList _, rfl⟩

/-- The encoder that is read is the selected one, with an issue if none is named. -/
theorem readEncoder_eq (doc : Table) :
    readEncoder doc = (doc.selectedEncoder,
      if doc.namedEncoder? = none then [.h264EncoderInvalid (namedEncoder doc)] else []) := by
  unfold readEncoder Toml.Table.selectedEncoder
  rw [bind_namedEncoder_eq]
  cases doc.namedEncoder? <;> rfl

/-- No codec is asked for twice. -/
theorem nodup_requestedCodecs (doc : Table) : doc.requestedCodecs.Nodup := by
  unfold Toml.Table.requestedCodecs
  split
  · decide
  · rw [← CodecOrder.codecs_ofList]
    exact CodecOrder.nodup_ofList _

/-- A section issue alone does not make a load less than complete. -/
theorem isSoftFailure_of_mem_missingIssues {encoder : H264Encoder} {c : ConnectionClass}
    {fields : List (String × Bool)} {i : ConfigIssue} (hi : i ∈ missingIssues encoder c fields) :
    i.isSoftFailure = false := by
  unfold missingIssues at hi
  split at hi
  · obtain ⟨f, -, rfl⟩ := List.mem_map.mp hi
    rfl
  · cases hi

namespace TableReader

variable {P : Type} {R : TableReader P}

/-- Whether what a reader finds wrong with a section never makes a load less than complete. -/
def IsLenient (R : TableReader P) : Prop :=
  ∀ s c inherited, ∀ i ∈ (R.read s c inherited).issues, i.isSoftFailure = false

theorem isLenient_x264Reader : x264Reader.IsLenient := by
  intro s c inherited i hi
  rcases List.mem_append.mp hi with hi | hi
  · exact isSoftFailure_of_mem_missingIssues hi
  · unfold threadsIssues at hi
    split at hi
    · split at hi
      · rw [List.mem_singleton.mp hi]
        rfl
      · cases hi
    · exact isSoftFailure_of_mem_missingIssues hi

theorem isLenient_openH264Reader : openH264Reader.IsLenient :=
  fun _ _ _ _ hi => isSoftFailure_of_mem_missingIssues hi

/-- Nothing that is wrong with a table makes a load less than complete. -/
theorem IsLenient.any_isSoftFailure (hR : R.IsLenient) (doc : Table) :
    (R.readTable doc).issues.any ConfigIssue.isSoftFailure = false := by
  have hsection : ∀ t base c, ∀ i ∈ (R.readSection t base c).issues, i.isSoftFailure = false := by
    intro t base c i hi
    unfold readSection at hi
    split at hi
    · exact hR _ _ _ i hi
    · cases hi
  simp only [List.any_eq_false, Bool.not_eq_true]
  intro i hi
  unfold readTable at hi
  split at hi
  · rw [List.mem_singleton.mp hi]
    rfl
  · split at hi
    · rw [List.mem_singleton.mp hi]
      rfl
    · obtain ⟨c, -, hi⟩ := List.mem_flatMap.mp hi
      dsimp only at hi
      split at hi
      · exact hR _ _ _ i hi
      · exact hsection _ _ _ i hi

/-- A table is loaded if it has a default section. -/
theorem loaded_readTable (R : TableReader P) (doc : Table) :
    (R.readTable doc).loaded = (doc.tuning? R.encoder).isSome := by
  unfold readTable Toml.Table.tuning?
  cases doc.table? R.encoder.name with
  | none => rfl
  | some t =>
    rw [Option.filter_some]
    cases ht : t.table? ConnectionClass.default.sectionName <;> simp [ht, readSections]

end TableReader

/-- What a document resolves to, in terms of what it asks for. -/
structure Resolution.Answers (r : Resolution) (doc : Table) : Prop where
  codecs_eq : r.config.codecOrder.codecs =
    if doc.LacksTuning then doc.requestedCodecs.filter (· != .h264) else doc.requestedCodecs
  encoder_eq : r.config.encoder = doc.selectedEncoder
  disabled_iff : r.disabled = true ↔ doc.LacksTuning
  /-- Only an order or an encoder that is not named makes a load less than complete. -/
  soft_iff : r.issues.any ConfigIssue.isSoftFailure = true ↔
    doc.recognisedCodecs = [] ∨ doc.namedEncoder? = none

/-- The issues of an order and an encoder are soft failures. -/
theorem any_isSoftFailure_read (doc : Table) :
    ((readCodecOrder doc).2 ++ (readEncoder doc).2).any ConfigIssue.isSoftFailure = true ↔
      doc.recognisedCodecs = [] ∨ doc.namedEncoder? = none := by
  rw [(readCodecOrder_eq doc).2, readEncoder_eq]
  by_cases hcodecs : doc.recognisedCodecs = [] <;> by_cases hencoder : doc.namedEncoder? = none <;>
    simp [hcodecs, hencoder, ConfigIssue.isSoftFailure]

/-- H.264 is in the order that is read if it is asked for. -/
theorem contains_readCodecOrder (doc : Table) :
    (readCodecOrder doc).1.contains .h264 = true ↔ .h264 ∈ doc.requestedCodecs := by
  rw [CodecOrder.contains, (readCodecOrder_eq doc).1, List.contains_iff_mem]

/-- The encoder that is read is the selected one. -/
theorem fst_readEncoder (doc : Table) : (readEncoder doc).1 = doc.selectedEncoder :=
  congrArg Prod.fst (readEncoder_eq doc)

/-- A document that does not ask for H.264 is not tuned. -/
theorem resolveDocument_of_not_mem {doc : Table} (h : .h264 ∉ doc.requestedCodecs) :
    resolveDocument doc = ⟨⟨(readCodecOrder doc).1, doc.selectedEncoder, .constants⟩,
      (readCodecOrder doc).2 ++ (readEncoder doc).2, false⟩ := by
  have hcontains : (readCodecOrder doc).1.contains .h264 = false :=
    Bool.eq_false_iff.mpr (mt (contains_readCodecOrder doc).mp h)
  unfold resolveDocument
  simp only [hcontains, fst_readEncoder, Bool.not_false, if_true]

/-- A document that asks for H.264 has both tables read, and keeps H.264 if its selected encoder
has a default section. -/
theorem resolveDocument_of_mem {doc : Table} (h : .h264 ∈ doc.requestedCodecs) :
    resolveDocument doc =
      let tuning := ⟨(x264Reader.readTable doc).table, (openH264Reader.readTable doc).table⟩
      let issues := (readCodecOrder doc).2 ++ (readEncoder doc).2 ++
        (x264Reader.readTable doc).issues ++ (openH264Reader.readTable doc).issues
      if (doc.tuning? doc.selectedEncoder).isSome then
        ⟨⟨(readCodecOrder doc).1, doc.selectedEncoder, tuning⟩, issues, false⟩
      else
        ⟨⟨(readCodecOrder doc).1.disable .h264, doc.selectedEncoder, tuning⟩,
          issues ++ [.h264Disabled doc.selectedEncoder], true⟩ := by
  unfold resolveDocument
  simp only [(contains_readCodecOrder doc).mpr h, fst_readEncoder, Bool.not_true,
    Bool.false_eq_true, if_false]
  cases doc.selectedEncoder with
  | x264 => simp only [TableReader.loaded_readTable, x264Reader]
  | openH264 => simp only [TableReader.loaded_readTable, openH264Reader]

/-- A document resolves to what it asks for. -/
theorem answers_resolveDocument (doc : Table) : (resolveDocument doc).Answers doc := by
  have hcodecs := (readCodecOrder_eq doc).1
  have hsoft := any_isSoftFailure_read doc
  have hx264 := TableReader.isLenient_x264Reader.any_isSoftFailure doc
  have hopen := TableReader.isLenient_openH264Reader.any_isSoftFailure doc
  by_cases hh264 : Codec.h264 ∈ doc.requestedCodecs
  · rw [resolveDocument_of_mem hh264]
    dsimp only
    cases htuning : doc.tuning? doc.selectedEncoder with
    | some t =>
      have hlacks : ¬ doc.LacksTuning := fun h => Option.some_ne_none t (htuning.symm.trans h.2)
      rw [if_pos Option.isSome_some]
      refine ⟨?_, rfl, ?_, ?_⟩
      · rw [if_neg hlacks]
        exact hcodecs
      · exact iff_of_false Bool.false_ne_true hlacks
      · rw [List.any_append, List.any_append, hx264, hopen, Bool.or_false, Bool.or_false]
        exact hsoft
    | none =>
      have hlacks : doc.LacksTuning := ⟨hh264, htuning⟩
      have hremoved : ([.h264Disabled doc.selectedEncoder] : List ConfigIssue).any
          ConfigIssue.isSoftFailure = false := rfl
      rw [Option.isSome_none, if_neg Bool.false_ne_true]
      refine ⟨?_, rfl, ?_, ?_⟩
      · rw [if_pos hlacks, ← hcodecs]
        rfl
      · exact iff_of_true rfl hlacks
      · rw [List.any_append, List.any_append, List.any_append, hx264, hopen, hremoved,
          Bool.or_false, Bool.or_false, Bool.or_false]
        exact hsoft
  · have hlacks : ¬ doc.LacksTuning := fun h => hh264 h.1
    rw [resolveDocument_of_not_mem hh264]
    refine ⟨?_, rfl, ?_, hsoft⟩
    · rw [if_neg hlacks]
      exact hcodecs
    · exact iff_of_false Bool.false_ne_true hlacks

/-- Whether an encoder is tuned by a table: its default class has what is looked up in the default
section. -/
def Tuning.IsFrom (tuning : Tuning) (encoder : H264Encoder) (t : Table) : Prop :=
  match encoder with
  | .x264 => tuning.x264.base = X264Params.lookedUp t .default
  | .openH264 => tuning.openH264.base = OpenH264Params.lookedUp t .default

/-- A document that asks for H.264 has an encoder tuned by each of its tables that has a default
section. -/
theorem isFrom_resolveDocument {doc t : Table} {encoder : H264Encoder}
    (hh264 : .h264 ∈ doc.requestedCodecs) (ht : doc.tuning? encoder = some t) :
    (resolveDocument doc).config.tuning.IsFrom encoder t := by
  have hcontains := (contains_readCodecOrder doc).mpr hh264
  rw [tuning_eq_ofFun]
  cases encoder with
  | x264 =>
    show X264Params.ofDocument doc .default = _
    rw [X264Params.ofDocument, if_pos hcontains, ht]
  | openH264 =>
    show OpenH264Params.ofDocument doc .default = _
    rw [OpenH264Params.ofDocument, if_pos hcontains, ht]

/-- The status of a document, from what it asks for. -/
theorem status_resolveDocument (doc : Table) :
    ((resolveDocument doc).status = .h264Disabled ↔ doc.LacksTuning) ∧
      ((resolveDocument doc).status = .degraded ↔
        ¬ doc.LacksTuning ∧ (doc.recognisedCodecs = [] ∨ doc.namedEncoder? = none)) ∧
      ((resolveDocument doc).status = .complete ↔
        ¬ doc.LacksTuning ∧ doc.recognisedCodecs ≠ [] ∧ doc.namedEncoder? ≠ none) := by
  have hanswers := answers_resolveDocument doc
  simp only [Resolution.status, hanswers.disabled_iff, hanswers.soft_iff]
  by_cases hlacks : doc.LacksTuning
  · simp [hlacks]
  · by_cases hcodecs : doc.recognisedCodecs = []
    · simp [hlacks, hcodecs]
    · by_cases hencoder : doc.namedEncoder? = none <;> simp [hlacks, hcodecs, hencoder]

/-- Loading the text of a document gives what the document resolves to. -/
theorem GfxLoad.ofText_eq {read? : String → Option Table} {text : String} {doc : Table}
    (h : read? text = some doc) :
    ofText read? text = ⟨(resolveDocument doc).config, (resolveDocument doc).status,
      (resolveDocument doc).issues⟩ := by
  rw [ofText, h]

/-- What is negotiated from a document: the codecs asked for, in that order and none of them twice,
without H.264 if there is nothing to tune its encoder by. -/
structure Negotiated (doc : Table) (config : GfxConfig) (status : LoadStatus) : Prop where
  codecs_eq : config.codecOrder.codecs =
    if doc.LacksTuning then doc.requestedCodecs.filter (· != .h264) else doc.requestedCodecs
  nodup : config.codecOrder.codecs.Nodup
  encoder_eq : config.encoder = doc.selectedEncoder
  h264Disabled_iff : status = .h264Disabled ↔ doc.LacksTuning
  degraded_iff : status = .degraded ↔
    ¬ doc.LacksTuning ∧ (doc.recognisedCodecs = [] ∨ doc.namedEncoder? = none)
  complete_iff : status = .complete ↔
    ¬ doc.LacksTuning ∧ doc.recognisedCodecs ≠ [] ∧ doc.namedEncoder? ≠ none
  exists_tuning : .h264 ∈ config.codecOrder.codecs →
    ∃ t, doc.tuning? config.encoder = some t ∧ config.tuning.IsFrom config.encoder t

/-- Every document is negotiated, and so is every text that reads as one, however texts are read. -/
theorem negotiated_load (doc : Table) :
    Negotiated doc (resolveDocument doc).config (resolveDocument doc).status ∧
      ∀ (read? : String → Option Table) (text : String), read? text = some doc →
        Negotiated doc (GfxLoad.ofText read? text).config (GfxLoad.ofText read? text).status := by
  have hnegotiated : Negotiated doc (resolveDocument doc).config (resolveDocument doc).status := by
    have hanswers := answers_resolveDocument doc
    obtain ⟨hdisabled, hdegraded, hcomplete⟩ := status_resolveDocument doc
    refine ⟨hanswers.codecs_eq, ?_, hanswers.encoder_eq, hdisabled, hdegraded, hcomplete,
      fun hh264 => ?_⟩
    · rw [hanswers.codecs_eq]
      split
      · exact (nodup_requestedCodecs doc).filter _
      · exact nodup_requestedCodecs doc
    · rw [hanswers.codecs_eq] at hh264
      split at hh264
      · simp at hh264
      · next hlacks =>
        obtain ⟨t, ht⟩ : ∃ t, doc.tuning? doc.selectedEncoder = some t :=
          Option.ne_none_iff_exists'.mp fun h => hlacks ⟨hh264, h⟩
        rw [hanswers.encoder_eq]
        exact ⟨t, ht, isFrom_resolveDocument hh264 ht⟩
  refine ⟨hnegotiated, fun read? text htext => ?_⟩
  rw [GfxLoad.ofText_eq htext]
  exact hnegotiated

/-- A name counts once, whatever the case of its letters, and what is no name does not count. -/
example :
    let doc : Table := [("codec", .table [("order",
      .array [.string "RfX", .integer 1, .string "h.264", .string "hevc", .string "RFX"])])]
    doc.requestedCodecs = [.rfx, .h264] ∧
      (resolveDocument doc).config.codecOrder.codecs = [.rfx] := by
  decide +kernel

/-- Some codec is asked for. -/
theorem requestedCodecs_ne_nil (doc : Table) : doc.requestedCodecs ≠ [] := by
  unfold Toml.Table.requestedCodecs
  split
  · exact List.cons_ne_nil _ _
  · next hcodecs =>
    obtain ⟨c, hc⟩ := List.exists_mem_of_ne_nil _ hcodecs
    exact List.ne_nil_of_mem (List.mem_eraseDups.mpr hc)

/-- Whether a document leaves no codec to offer: it asks for H.264 alone and has no default section
to tune its selected encoder by. -/
def Toml.Table.LeavesNothing (doc : Table) : Prop :=
  doc.requestedCodecs = [.h264] ∧ doc.tuning? doc.selectedEncoder = none

/-- No codec is left exactly if H.264 is asked for alone and taken out. -/
theorem codecs_resolveDocument_eq_nil_iff (doc : Table) :
    (resolveDocument doc).config.codecOrder.codecs = [] ↔ doc.LeavesNothing := by
  rw [(answers_resolveDocument doc).codecs_eq]
  split
  · next hlacks =>
    constructor
    · intro hnil
      have hall : ∀ c ∈ doc.requestedCodecs, c = .h264 := by
        simpa [List.filter_eq_nil_iff] using hnil
      have hreplicate := List.eq_replicate_of_mem hall
      have hone : doc.requestedCodecs.length ≤ 1 :=
        List.nodup_replicate.mp (hreplicate ▸ nodup_requestedCodecs doc)
      have hpos := List.length_pos_of_mem hlacks.1
      rw [show doc.requestedCodecs.length = 1 by omega] at hreplicate
      exact ⟨hreplicate, hlacks.2⟩
    · rintro ⟨honly, -⟩
      rw [honly]
      rfl
  · next hlacks =>
    constructor
    · intro hnil
      exact absurd hnil (requestedCodecs_ne_nil doc)
    · rintro ⟨honly, htuning⟩
      exact absurd ⟨honly ▸ List.mem_singleton_self _, htuning⟩ hlacks

/-- A text offers no codec exactly if it reads as a document that leaves none. -/
theorem codecs_ofText_eq_nil_iff (read? : String → Option Table) (text : String) :
    (GfxLoad.ofText read? text).config.codecOrder.codecs = [] ↔
      ∃ doc, read? text = some doc ∧ doc.LeavesNothing := by
  cases htext : read? text with
  | none =>
    rw [GfxLoad.ofText, htext]
    simp [GfxConfig.minimal, CodecOrder.minimal]
  | some doc =>
    rw [GfxLoad.ofText_eq htext, codecs_resolveDocument_eq_nil_iff]
    simp

/-- Whatever is loaded, from a text or a file and however texts are read, offers a codec unless it
reads as a document that asks for H.264 alone and has no default section to tune its selected
encoder by. -/
theorem offersNothing_iff (read? : String → Option Table) (text : String)
    (contents : Except ReadFailure ByteArray) :
    ((GfxLoad.ofText read? text).config.codecOrder.codecs = [] ↔
      ∃ doc, read? text = some doc ∧ doc.LeavesNothing) ∧
    ((GfxLoad.ofFile read? contents).config.codecOrder.codecs = [] ↔
      ∃ text doc, contents.bind textOfBytes = .ok text ∧ read? text = some doc ∧
        doc.LeavesNothing) := by
  refine ⟨codecs_ofText_eq_nil_iff read? text, ?_⟩
  unfold GfxLoad.ofFile
  cases hcontents : contents.bind textOfBytes with
  | error failure => simp [GfxConfig.minimal, CodecOrder.minimal]
  | ok text => simp [codecs_ofText_eq_nil_iff]

/-- A document that asks for H.264 alone and tunes nothing. -/
example :
    let doc : Table := [("codec", .table [("order", .array [.string "H.264"])])]
    (resolveDocument doc).config.codecOrder.codecs = [] := by
  decide +kernel

end FrameEncoder
