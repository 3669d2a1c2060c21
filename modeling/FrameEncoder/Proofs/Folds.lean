/-!
# Folds that may fail

A fold over a list whose every step may fail has a result if all its steps have one. What each step
keeps, the fold keeps; what one step brings about and the others keep holds in the end.
-/

namespace FrameEncoder

variable {α β : Type} {f : β → α → Option β}

/-- A fold whose steps all have results, as long as what holds of the state is kept. -/
theorem exists_foldlM {P : β → Prop} (l : List α) {b : β}
    (hf : ∀ a ∈ l, ∀ b, P b → ∃ c, f b a = some c ∧ P c) (hb : P b) :
    ∃ c, l.foldlM f b = some c ∧ P c := by
  induction l generalizing b with
  | nil => exact ⟨b, rfl, hb⟩
  | cons a l ih =>
    obtain ⟨c, hc, hP⟩ := hf a List.mem_cons_self b hb
    obtain ⟨d, hd, hQ⟩ := ih (fun a' ha' => hf a' (List.mem_cons_of_mem _ ha')) hP
    refine ⟨d, ?_, hQ⟩
    rw [List.foldlM_cons, hc]
    exact hd

/-- What every step of a fold keeps holds in the end. -/
theorem foldlM_keeps {Q : β → Prop} {l : List α}
    (hf : ∀ a ∈ l, ∀ b c, f b a = some c → Q b → Q c) {b c : β} (h : l.foldlM f b = some c)
    (hb : Q b) : Q c := by
  induction l generalizing b with
  | nil =>
    cases h
    exact hb
  | cons a l ih =>
    rw [List.foldlM_cons] at h
    obtain ⟨mid, hmid, hrest⟩ := Option.bind_eq_some_iff.mp h
    exact ih (fun a' ha' => hf a' (List.mem_cons_of_mem _ ha')) hrest
      (hf a List.mem_cons_self b mid hmid hb)

/-- What one step of a fold brings about and every step keeps holds in the end. -/
theorem foldlM_reaches {Q : β → Prop} {l : List α}
    (hf : ∀ a ∈ l, ∀ b c, f b a = some c → Q b → Q c) {a : α} (ha : a ∈ l)
    (hreach : ∀ b c, f b a = some c → Q c) {b c : β} (h : l.foldlM f b = some c) : Q c := by
  induction l generalizing b with
  | nil => cases ha
  | cons a' l ih =>
    rw [List.foldlM_cons] at h
    obtain ⟨mid, hmid, hrest⟩ := Option.bind_eq_some_iff.mp h
    have hkeeps : ∀ a ∈ l, ∀ b c, f b a = some c → Q b → Q c :=
      fun a ha => hf a (List.mem_cons_of_mem _ ha)
    rcases List.mem_cons.mp ha with rfl | ha
    · exact foldlM_keeps hkeeps hrest (hreach b mid hmid)
    · exact ih hkeeps ha hrest

/-- A fold with a result had one before its last step. -/
theorem exists_of_foldlM_concat {l : List α} {a : α} {b c : β}
    (h : (l ++ [a]).foldlM f b = some c) : ∃ mid, l.foldlM f b = some mid ∧ f mid a = some c := by
  simp only [List.foldlM_append, List.foldlM_cons, List.foldlM_nil, bind_pure] at h
  exact Option.bind_eq_some_iff.mp h

end FrameEncoder
