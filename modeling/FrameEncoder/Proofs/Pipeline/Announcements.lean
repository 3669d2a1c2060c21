import FrameEncoder.Proofs.Pipeline.EffectTrace

/-!
# What is told of a result before it is sent

The encode thread counts a result and marks its frame before it sends the result. Cut off the
effects of any commands at any point: what they have told by then covers every result they have
sent by then, in the same order. What is told and by which effects is left open here; the totals
tell of payloads, the frame counters of completed frames.
-/

namespace FrameEncoder

variable {α β : Type} {told : EncodeResult → Option α} {tell : Effect → Option α}
  {effects : List Effect}

/-- Whether effects tell what there is to tell of the results they send, and never too late. -/
structure Announces (told : EncodeResult → Option α) (tell : Effect → Option α)
    (effects : List Effect) : Prop where
  told_eq : (sentBy effects).filterMap told = effects.filterMap tell
  told_prefix : ∀ seen, seen <+: effects → (sentBy seen).filterMap told <+: seen.filterMap tell

/-- Effects that send nothing send nothing up to any point. -/
theorem sentBy_eq_nil {seen : List Effect} (h : ∀ e ∈ effects, e.sent? = none)
    (hseen : seen <+: effects) : sentBy seen = [] :=
  List.filterMap_eq_nil_iff.mpr fun e he => h e (hseen.subset he)

/-- Effects that neither send nor tell anything announce what they send. -/
theorem announces_of_silent (h : ∀ e ∈ effects, e.sent? = none ∧ tell e = none) :
    Announces told tell effects := by
  have hsent : ∀ seen, seen <+: effects → sentBy seen = [] := fun _ =>
    sentBy_eq_nil fun e he => (h e he).1
  constructor
  · rw [hsent effects List.prefix_rfl]
    exact (List.filterMap_eq_nil_iff.mpr fun e he => (h e he).2).symm
  · intro seen hseen
    rw [hsent seen hseen]
    exact List.nil_prefix

/-- Effects that announce what they send do so one after the other. -/
theorem Announces.append {xs ys : List Effect} (hx : Announces told tell xs)
    (hy : Announces told tell ys) : Announces told tell (xs ++ ys) := by
  have hsent : ∀ ys : List Effect, (sentBy (xs ++ ys)).filterMap told =
      (sentBy xs).filterMap told ++ (sentBy ys).filterMap told := by
    intro ys
    simp only [sentBy, List.filterMap_append]
  constructor
  · rw [hsent, List.filterMap_append, hx.told_eq, hy.told_eq]
  · intro seen hseen
    rcases List.prefix_or_prefix_of_prefix hseen (List.prefix_append xs ys) with hfirst | ⟨zs, rfl⟩
    · exact hx.told_prefix seen hfirst
    · rw [hsent, List.filterMap_append, hx.told_eq, List.prefix_append_right_inj]
      exact hy.told_prefix zs ((List.prefix_append_right_inj xs).mp hseen)

/-- A result is announced if the effects before it is sent tell what there is to tell of it. -/
theorem announces_concat {r : EncodeResult} (hsilent : ∀ e ∈ effects, e.sent? = none)
    (htold : effects.filterMap tell = (told r).toList) (hsend : tell (.send r) = none) :
    Announces told tell (effects ++ [.send r]) := by
  have hsent : sentBy (effects ++ [.send r]) = [r] := by
    rw [sentBy, List.filterMap_append, ← sentBy, sentBy_eq_nil hsilent List.prefix_rfl]
    rfl
  have hall : (sentBy (effects ++ [.send r])).filterMap told =
      (effects ++ [Effect.send r]).filterMap tell := by
    rw [hsent, List.filterMap_append, htold, List.filterMap_cons_none hsend, List.filterMap_nil,
      List.append_nil]
    cases htell : told r <;> simp [htell]
  refine ⟨hall, fun seen hseen => ?_⟩
  rcases List.prefix_concat_iff.mp hseen with rfl | hbefore
  · exact hall ▸ List.prefix_rfl
  · rw [sentBy_eq_nil hsilent hbefore]
    exact List.nil_prefix

/-- What every result is announced by, the commands that were dealt with announce: whatever else
they count comes before their results. -/
theorem Dealt.IsBy.announces {B : Backend β} {config : PipelineConfig} {d : Dealt β}
    (h : d.IsBy B config) (hpublish : ∀ r, Announces told tell (publish r))
    (hcounts : ∀ e ∈ [.countReinit, .countSkipped, .countFailed], tell e = none) :
    Announces told tell d.effects := by
  obtain ⟨dest, heffects, -⟩ := h
  obtain ⟨counts, results, heq, hsubset⟩ := exists_published heffects
  have hresults : Announces told tell (results.flatMap publish) := by
    clear heq
    induction results with
    | nil => exact announces_of_silent fun e he => absurd he List.not_mem_nil
    | cons r results ih => exact (hpublish r).append ih
  rw [heq]
  refine (announces_of_silent fun e he => ?_).append hresults
  have hcount := hsubset he
  refine ⟨?_, hcounts e hcount⟩
  simp only [List.mem_cons, List.not_mem_nil, or_false] at hcount
  obtain rfl | rfl | rfl := hcount <;> rfl

/-- What commands announce one by one, they announce one after the other. -/
theorem announces_flatMap {ds : List (Dealt β)} (h : ∀ d ∈ ds, Announces told tell d.effects) :
    Announces told tell (ds.flatMap Dealt.effects) := by
  induction ds with
  | nil => exact announces_of_silent fun e he => absurd he List.not_mem_nil
  | cons d ds ih =>
    rw [List.flatMap_cons]
    exact (h d List.mem_cons_self).append (ih fun d' hd' => h d' (List.mem_cons_of_mem d hd'))

end FrameEncoder
