import FrameEncoder.Backend.Selection
import FrameEncoder.Proofs.Backend.Openings

/-!
# Where a tuning parameter comes from

Every parameter of every connection class is looked up on its own: in the section of the class, then
in the default section, then among the documented constants. A value counts only if it has a type
the parameter accepts; a section that is no table counts as absent. A negative number of threads is
accepted and stands for the constant. Without H.264 in the order, or without the table or its
default section, all classes have the constants, whatever the other sections say.
-/

namespace FrameEncoder

open Toml (Table Value)

variable {α : Type}

/-- The value of a key in a section, if it is there with an accepted type. -/
def Toml.Table.accepted? (s : Table) (key : String) (accept : Value → Option α) : Option α :=
  (s.get? key).bind accept

/-- A parameter of a class: from the section of the class, else from the default section, else the
constant. -/
def lookUp (t : Table) (c : ConnectionClass) (key : String) (accept : Value → Option α)
    (constant : α) : α :=
  let given (name : String) : Option α := (t.table? name).bind fun s => s.accepted? key accept
  ((given c.sectionName).or (given ConnectionClass.default.sectionName)).getD constant

/-- The number of threads a value stands for; a negative number stands for one. -/
def acceptThreads : Value → Option Int64
  | .integer n => some (if n < 0 then 1 else n)
  | _ => none

/-- The rate a value stands for, an integer or not. -/
def acceptRate : Value → Option Float32
  | .float x => some x.toFloat32
  | .integer n => some n.toFloat32
  | _ => none

/-- The parameters of x264 for a class, each looked up on its own. -/
def X264Params.lookedUp (t : Table) (c : ConnectionClass) : X264Params where
  preset := lookUp t c "preset" Value.string? "ultrafast"
  tune := lookUp t c "tune" Value.string? "zerolatency"
  profile := lookUp t c "profile" Value.string? "main"
  vbvMaxBitrate := lookUp t c "vbv_max_bitrate" Value.integer? 0
  vbvBufferSize := lookUp t c "vbv_buffer_size" Value.integer? 0
  fpsNum := lookUp t c "fps_num" Value.integer? 24
  fpsDen := lookUp t c "fps_den" Value.integer? 1
  threads := lookUp t c "threads" acceptThreads 1

/-- The parameters of OpenH264 for a class, each looked up on its own. -/
def OpenH264Params.lookedUp (t : Table) (c : ConnectionClass) : OpenH264Params where
  enableFrameSkip := lookUp t c "EnableFrameSkip" Value.boolean? false
  targetBitrate := lookUp t c "TargetBitrate" Value.integer? 0
  maxBitrate := lookUp t c "MaxBitrate" Value.integer? 0
  maxFrameRate := lookUp t c "MaxFrameRate" acceptRate 0

section Levels

variable {t base : Table} (hbase : t.table? ConnectionClass.default.sectionName = some base)
include hbase

/-- A parameter of the default class is that of the default section, or else the constant. -/
theorem lookUp_default (key : String) (accept : Value → Option α) (constant : α) :
    lookUp t .default key accept constant = (base.accepted? key accept).getD constant := by
  simp only [lookUp, hbase, Option.bind_some, Option.or_self]

/-- A class without a section has the parameters of the default class. -/
theorem lookUp_of_none {c : ConnectionClass} (hc : t.table? c.sectionName = none) (key : String)
    (accept : Value → Option α) (constant : α) :
    lookUp t c key accept constant = (base.accepted? key accept).getD constant := by
  simp only [lookUp, hbase, hc, Option.bind_some, Option.bind_none, Option.none_or]

/-- A class with a section has its own parameters, and those of the default class where it lacks
them. -/
theorem lookUp_of_some {c : ConnectionClass} {s : Table} (hc : t.table? c.sectionName = some s)
    (key : String) (accept : Value → Option α) (constant : α) :
    lookUp t c key accept constant =
      (s.accepted? key accept).getD ((base.accepted? key accept).getD constant) := by
  simp only [lookUp, hbase, hc, Option.bind_some]
  cases s.accepted? key accept <;> rfl

end Levels

/-- The threads of a section are those it gives, or those it inherits. -/
theorem threadsOf_eq (s : Table) (inherited : Int64) :
    threadsOf (integerField? s "threads") inherited =
      (s.accepted? "threads" acceptThreads).getD inherited := by
  unfold integerField? Toml.Table.accepted?
  cases s.get? "threads" with
  | none => rfl
  | some v => cases v <;> rfl

/-- The rate of a section is the one it gives, if it does. -/
theorem rateField?_eq (s : Table) :
    rateField? s "MaxFrameRate" = s.accepted? "MaxFrameRate" acceptRate := by
  unfold rateField? Toml.Table.accepted?
  cases s.get? "MaxFrameRate" with
  | none => rfl
  | some v => cases v <;> rfl

/-- A section of x264 overrides what it gives of the record it inherits. -/
theorem params_readX264 (s : Table) (c : ConnectionClass) (inherited : X264Params) :
    (readX264 s c inherited).params = {
      preset := (s.accepted? "preset" Value.string?).getD inherited.preset
      tune := (s.accepted? "tune" Value.string?).getD inherited.tune
      profile := (s.accepted? "profile" Value.string?).getD inherited.profile
      vbvMaxBitrate := (s.accepted? "vbv_max_bitrate" Value.integer?).getD inherited.vbvMaxBitrate
      vbvBufferSize := (s.accepted? "vbv_buffer_size" Value.integer?).getD inherited.vbvBufferSize
      fpsNum := (s.accepted? "fps_num" Value.integer?).getD inherited.fpsNum
      fpsDen := (s.accepted? "fps_den" Value.integer?).getD inherited.fpsDen
      threads := (s.accepted? "threads" acceptThreads).getD inherited.threads } := by
  rw [← threadsOf_eq]
  rfl

/-- A section of OpenH264 overrides what it gives of the record it inherits. -/
theorem params_readOpenH264 (s : Table) (c : ConnectionClass) (inherited : OpenH264Params) :
    (readOpenH264 s c inherited).params = {
      enableFrameSkip :=
        (s.accepted? "EnableFrameSkip" Value.boolean?).getD inherited.enableFrameSkip
      targetBitrate := (s.accepted? "TargetBitrate" Value.integer?).getD inherited.targetBitrate
      maxBitrate := (s.accepted? "MaxBitrate" Value.integer?).getD inherited.maxBitrate
      maxFrameRate := (s.accepted? "MaxFrameRate" acceptRate).getD inherited.maxFrameRate } := by
  rw [← rateField?_eq]
  rfl

namespace TableReader

variable {P : Type}

/-- Whether a reader gives every class of a table with a default section the record that is looked
up for it. -/
structure LooksUp (R : TableReader P) (lookedUp : Table → ConnectionClass → P) : Prop where
  base_eq : ∀ t base, t.table? ConnectionClass.default.sectionName = some base →
    (R.read base .default R.constants).params = lookedUp t .default
  section_eq : ∀ t base, t.table? ConnectionClass.default.sectionName = some base →
    ∀ c, (R.readSection t (R.read base .default R.constants).params c).params = lookedUp t c

/-- The table of x264 is looked up. -/
theorem looksUp_x264Reader : x264Reader.LooksUp X264Params.lookedUp where
  base_eq t base hbase := by
    simp only [x264Reader, params_readX264, X264Params.lookedUp, lookUp_default hbase]
    rfl
  section_eq t base hbase c := by
    unfold readSection
    cases hc : t.table? c.sectionName with
    | none =>
      simp only [x264Reader, params_readX264, X264Params.lookedUp, lookUp_of_none hbase hc]
      rfl
    | some s =>
      simp only [x264Reader, params_readX264, X264Params.lookedUp, lookUp_of_some hbase hc]
      rfl

/-- The table of OpenH264 is looked up. -/
theorem looksUp_openH264Reader : openH264Reader.LooksUp OpenH264Params.lookedUp where
  base_eq t base hbase := by
    simp only [openH264Reader, params_readOpenH264, OpenH264Params.lookedUp, lookUp_default hbase]
    rfl
  section_eq t base hbase c := by
    unfold readSection
    cases hc : t.table? c.sectionName with
    | none =>
      simp only [openH264Reader, params_readOpenH264, OpenH264Params.lookedUp,
        lookUp_of_none hbase hc]
      rfl
    | some s =>
      simp only [openH264Reader, params_readOpenH264, OpenH264Params.lookedUp,
        lookUp_of_some hbase hc]
      rfl

end TableReader

/-- The table of a document that an encoder is tuned by, if it is a table with a default section. -/
def Toml.Table.tuning? (doc : Table) (encoder : H264Encoder) : Option Table :=
  (doc.table? encoder.name).filter fun t => (t.table? ConnectionClass.default.sectionName).isSome

/-- A reader gives every class the record that is looked up for it, or the constants if there is
nothing to look it up in. -/
theorem table_readTable {P : Type} {R : TableReader P} {lookedUp : Table → ConnectionClass → P}
    (h : R.LooksUp lookedUp) (doc : Table) :
    (R.readTable doc).table = .ofFun fun c =>
      match doc.tuning? R.encoder with
      | some t => lookedUp t c
      | none => R.constants := by
  unfold TableReader.readTable Toml.Table.tuning?
  cases ht : doc.table? R.encoder.name with
  | none => rfl
  | some t =>
    simp only
    cases hbase : t.table? ConnectionClass.default.sectionName with
    | none =>
      simp only [Option.filter_some, hbase, Option.isSome_none]
      rfl
    | some base =>
      simp only [Option.filter_some, hbase, Option.isSome_some, if_true]
      show ParamTable.ofFun (fun c => SectionReading.params (if c = .default
        then R.read base .default R.constants
        else R.readSection t (R.read base .default R.constants).params c)) = _
      refine congrArg ParamTable.ofFun (funext fun c => ?_)
      by_cases hc : c = .default
      · rw [if_pos hc, hc]
        exact h.base_eq t base hbase
      · rw [if_neg hc]
        exact h.section_eq t base hbase c

/-- The record of x264 that a document gives a class. -/
def X264Params.ofDocument (doc : Table) (c : ConnectionClass) : X264Params :=
  if (readCodecOrder doc).1.contains .h264 then
    match doc.tuning? .x264 with
    | some t => lookedUp t c
    | none => constants
  else constants

/-- The record of OpenH264 that a document gives a class. -/
def OpenH264Params.ofDocument (doc : Table) (c : ConnectionClass) : OpenH264Params :=
  if (readCodecOrder doc).1.contains .h264 then
    match doc.tuning? .openH264 with
    | some t => lookedUp t c
    | none => constants
  else constants

/-- The tuning of a document is read if H.264 is in the order, whether or not H.264 is taken out of
it again. -/
theorem tuning_resolveDocument (doc : Table) : (resolveDocument doc).config.tuning =
    if (readCodecOrder doc).1.contains .h264 then
      ⟨(x264Reader.readTable doc).table, (openH264Reader.readTable doc).table⟩
    else .constants := by
  unfold resolveDocument
  simp only
  cases (readCodecOrder doc).1.contains .h264 with
  | false => rfl
  | true =>
    simp only [Bool.not_true, Bool.false_eq_true, if_false, if_true]
    split <;> split <;> rfl

/-- A document resolves to the records it gives the classes. -/
theorem tuning_eq_ofFun (doc : Table) : (resolveDocument doc).config.tuning =
    ⟨.ofFun (X264Params.ofDocument doc), .ofFun (OpenH264Params.ofDocument doc)⟩ := by
  rw [tuning_resolveDocument, table_readTable TableReader.looksUp_x264Reader,
    table_readTable TableReader.looksUp_openH264Reader]
  unfold X264Params.ofDocument OpenH264Params.ofDocument
  cases (readCodecOrder doc).1.contains .h264 <;> rfl

/-- A table that was made from a function has its values in slot order. -/
theorem toList_ofFun {P : Type} (f : ConnectionClass → P) :
    (ParamTable.ofFun f).toList = ConnectionClass.tuned.map fun c => (c, f c) := rfl

/-- The slots of both tuning tables of a document hold the records it gives their classes, and what
an encode call opens is opened with the record of the class its request is tuned for. -/
theorem records_resolveDocument (doc : Table) :
    let config := (resolveDocument doc).config
    (config.tuning.x264.toList =
        ConnectionClass.tuned.map fun c => (c, X264Params.ofDocument doc c)) ∧
      (config.tuning.openH264.toList =
        ConnectionClass.tuned.map fun c => (c, OpenH264Params.ofDocument doc c)) ∧
      (∀ (σ : Type) (E : Engine X264Params σ) (s : H264State X264Params σ)
          (r : EncodeRequest) (dest : ByteArray),
        s.host.Continues (X264Params.ofDocument doc (.clampForEncode r.connection.wire))
          ((config.x264Backend E).encode s r dest).2.2.host) ∧
      ∀ (σ : Type) (E : Engine OpenH264Params σ) (s : H264State OpenH264Params σ)
          (r : EncodeRequest) (dest : ByteArray),
        s.host.Continues (OpenH264Params.ofDocument doc (.clampForEncode r.connection.wire))
          ((config.openH264Backend E).encode s r dest).2.2.host := by
  intro config
  have htuning : config.tuning =
      ⟨.ofFun (X264Params.ofDocument doc), .ofFun (OpenH264Params.ofDocument doc)⟩ :=
    tuning_eq_ofFun doc
  refine ⟨?_, ?_, fun σ E => ?_, fun σ E => ?_⟩
  · rw [htuning]
    exact toList_ofFun _
  · rw [htuning]
    exact toList_ofFun _
  · exact H264Backend.continues_encode_of_table_eq (congrArg Tuning.x264 htuning)
  · exact H264Backend.continues_encode_of_table_eq (congrArg Tuning.openH264 htuning)

/-- A class may take its threads from the default section, or have a number that makes no sense. -/
example :
    let t : Table := [("default", .table [("threads", .integer 4), ("tune", .string "film")]),
      ("wan", .table [("tune", .integer 3)]), ("lan", .table [("threads", .integer (-2))])]
    let doc : Table := [("codec", .table [("order", .array [.string "H264"])]), ("x264", .table t)]
    X264Params.ofDocument doc .wan = { X264Params.constants with threads := 4, tune := "film" } ∧
      X264Params.ofDocument doc .lan = { X264Params.constants with tune := "film" } := by
  decide +kernel

end FrameEncoder
