import HedgeVault.Lib.Run

/-!
# Projections of runs

`labels h` are the labels of a history, newest first. `Run.refine` carries a run to another
system along a relation of the states, where a step is matched by a run of its own; in
`Run.segment` all that is known of the labels of that run is how they relate to the step. In
`Run.project` that run is one step at most: `π` says which label the other system sees, a step
it sees is matched there and one it does not see keeps the relation. `Run.risen` finds the step
since which a property holds.
-/

namespace HedgeVault.Lib

variable {σ τ α β : Type*} {step : σ → α → σ → Prop} {step₂ : τ → β → τ → Prop}
  {s₀ s : σ} {u₀ : τ} {h : List (Transition σ α)}

def labels (h : List (Transition σ α)) : List α := h.map fun t => t.label

/-- The other system follows a step to `s'` that it sees as `b`. -/
def Follows (step₂ : τ → β → τ → Prop) (R : σ → τ → Prop) (b : Option β) (s' : σ) (u : τ) : Prop :=
  match b with
  | some b => ∃ u', step₂ u b u' ∧ R s' u'
  | none => R s' u

/-- What runs of the other system match step by step, one run of it matches. Its labels fall into
segments, one for each step. -/
theorem Run.segment {R : σ → τ → Prop} {A : α → List β → Prop} (hr : Run step s₀ h s)
    (h0 : R s₀ u₀)
    (hsim : ∀ t ∈ h, step t.pre t.label t.post → ∀ u, R t.pre u →
      ∃ h₁ u', Run step₂ u h₁ u' ∧ A t.label (labels h₁) ∧ R t.post u') :
    ∃ h₂ u segments, Run step₂ u₀ h₂ u ∧ labels h₂ = List.flatten segments ∧
      List.Forall₂ A (labels h) segments ∧ R s u := by
  induction hr with
  | nil => exact ⟨[], u₀, [], .nil, rfl, .nil, h0⟩
  | @snoc h s s' a hr st ih =>
    obtain ⟨h₂, u, segments, hr₂, hlabels, hsegments, hR⟩ :=
      ih fun t ht => hsim t (List.mem_cons_of_mem _ ht)
    obtain ⟨h₁, u', hr₁, hlast, hR'⟩ := hsim _ List.mem_cons_self st u hR
    refine ⟨h₁ ++ h₂, u', labels h₁ :: segments, hr₂.trans hr₁, ?_, .cons hlast hsegments, hR'⟩
    unfold labels at hlabels ⊢
    rw [List.map_append, hlabels, List.flatten_cons]

section

variable {ι : Type*} {rank : α → ι} {rank₂ : β → ι} {as : List α} {segments : List (List β)}

/-- What replaces entries by some of the same rank has only ranks that were there. -/
theorem rank_of_mem_flatten
    (hsegments : List.Forall₂ (fun a bs => ∀ b ∈ bs, rank₂ b = rank a) as segments) {b : β}
    (hb : b ∈ segments.flatten) : ∃ a ∈ as, rank₂ b = rank a := by
  induction hsegments with
  | nil => cases hb
  | @cons a bs as segments hbs _ ih =>
    rw [List.flatten_cons] at hb
    rcases List.mem_append.1 hb with hb | hb
    · exact ⟨a, List.mem_cons_self, hbs b hb⟩
    · obtain ⟨a', ha', hrank⟩ := ih hb
      exact ⟨a', List.mem_cons_of_mem _ ha', hrank⟩

/-- And what was ordered by rank stays so. -/
theorem pairwise_flatten {r : ι → ι → Prop} (hrefl : ∀ i, r i i)
    (hsegments : List.Forall₂ (fun a bs => ∀ b ∈ bs, rank₂ b = rank a) as segments)
    (has : as.Pairwise fun a a' => r (rank a) (rank a')) :
    segments.flatten.Pairwise fun b b' => r (rank₂ b) (rank₂ b') := by
  induction hsegments with
  | nil => exact .nil
  | @cons a bs as segments hbs hrest ih =>
    obtain ⟨hfirst, has⟩ := List.pairwise_cons.1 has
    rw [List.flatten_cons, List.pairwise_append]
    refine ⟨?_, ih has, ?_⟩
    · apply List.pairwise_of_forall_mem_list
      intro b hb b' hb'
      rw [hbs b hb, hbs b' hb']
      exact hrefl _
    · intro b hb b' hb'
      obtain ⟨a', ha', hrank⟩ := rank_of_mem_flatten hrest hb'
      rw [hbs b hb, hrank]
      exact hfirst a' ha'

end

/-- What runs of the other system match step by step, one run of it matches. -/
theorem Run.refine {R : σ → τ → Prop} {π : Transition σ α → List β} (hr : Run step s₀ h s)
    (h0 : R s₀ u₀)
    (hsim : ∀ t ∈ h, step t.pre t.label t.post → ∀ u, R t.pre u →
      ∃ h₁ u', Run step₂ u h₁ u' ∧ labels h₁ = π t ∧ R t.post u') :
    ∃ h₂ u, Run step₂ u₀ h₂ u ∧ labels h₂ = h.flatMap π ∧ R s u := by
  induction hr with
  | nil => exact ⟨[], u₀, .nil, rfl, h0⟩
  | @snoc h s s' a hr st ih =>
    obtain ⟨h₂, u, hr₂, hlabels, hR⟩ := ih fun t ht => hsim t (List.mem_cons_of_mem _ ht)
    obtain ⟨h₁, u', hr₁, hlast, hR'⟩ := hsim _ List.mem_cons_self st u hR
    refine ⟨h₁ ++ h₂, u', hr₂.trans hr₁, ?_, hR'⟩
    unfold labels at hlabels hlast ⊢
    rw [List.map_append, hlast, hlabels, List.flatMap_cons]

/-- What every executed step follows, the run does: the other system takes the labels it sees
in their order. -/
theorem Run.project {R : σ → τ → Prop} {π : α → Option β} (hr : Run step s₀ h s) (h0 : R s₀ u₀)
    (hsim : ∀ t ∈ h, step t.pre t.label t.post → ∀ u, R t.pre u →
      Follows step₂ R (π t.label) t.post u) :
    ∃ h₂ u, Run step₂ u₀ h₂ u ∧ labels h₂ = (labels h).filterMap π ∧ R s u := by
  have hmatch : ∀ t ∈ h, step t.pre t.label t.post → ∀ u, R t.pre u →
      ∃ h₁ u', Run step₂ u h₁ u' ∧ labels h₁ = (π t.label).toList ∧ R t.post u' := by
    intro t ht st u hR
    have hfollows := hsim t ht st u hR
    cases hπ : π t.label with
    | none =>
      rw [hπ] at hfollows
      exact ⟨[], u, .nil, rfl, hfollows⟩
    | some b =>
      rw [hπ] at hfollows
      obtain ⟨u', st₂, hR'⟩ := hfollows
      exact ⟨[⟨u, b, u'⟩], u', Run.nil.snoc st₂, rfl, hR'⟩
  obtain ⟨h₂, u, hr₂, hlabels, hR⟩ := hr.refine h0 hmatch
  refine ⟨h₂, u, hr₂, ?_, hR⟩
  rw [hlabels, labels, List.filterMap_map, List.filterMap_eq_flatMap_toList]
  rfl

/-- What holds now and not at the start holds since one of the steps. -/
theorem Run.risen {Q : σ → Prop} (hr : Run step s₀ h s) (h0 : ¬ Q s₀) (hs : Q s) :
    ∃ newer t older, h = newer ++ t :: older ∧ ¬ Q t.pre ∧ Q t.post ∧
      ∀ u ∈ newer, Q u.pre ∧ Q u.post := by
  induction hr with
  | nil => exact absurd hs h0
  | @snoc h s s' a hr st ih =>
    by_cases hpre : Q s
    · obtain ⟨newer, t, older, rfl, hnot, ht, hnewer⟩ := ih hpre
      refine ⟨⟨s, a, s'⟩ :: newer, t, older, rfl, hnot, ht, ?_⟩
      intro u hu
      rcases List.mem_cons.1 hu with rfl | hu
      · exact ⟨hpre, hs⟩
      · exact hnewer u hu
    · exact ⟨[], ⟨s, a, s'⟩, h, rfl, hpre, hs, nofun⟩

end HedgeVault.Lib
