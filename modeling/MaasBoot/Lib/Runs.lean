import Mathlib.Data.List.Basic
import Mathlib.Data.List.DropRight
import Mathlib.Logic.Function.Iterate

/-!
# Runs

A system takes one step for each event.  Its runs are the folds over lists of events; a run may be restricted to
steps that meet a condition on the state before the step and the event.  For a system that runs by itself, `Leads`
says that it gets from some states to others.  A machine with outputs leaves a trace, the list of its inputs with
their outputs.  `since` and `latest` look back over such a list.  Steps that may fail end a run at the first
failure.
-/

namespace MaasBoot

section Runs

variable {σ α : Type} (next : σ → α → σ)

/-- The state after some events. -/
def runEvents (s : σ) (es : List α) : σ := es.foldl next s

/-- Every step of a run meets a condition. -/
def Along (cond : σ → α → Prop) : σ → List α → Prop
  | _, [] => True
  | s, e :: es => cond s e ∧ Along cond (next s e) es

variable {next}

theorem runEvents_append (s : σ) (es es' : List α) :
    runEvents next s (es ++ es') = runEvents next (runEvents next s es) es' :=
  List.foldl_append ..

/-- A condition on the events alone. -/
theorem along_of_forall_mem {cond : α → Prop} {es : List α} (h : ∀ e ∈ es, cond e) {s : σ} :
    Along next (fun _ e => cond e) s es := by
  induction es generalizing s with
  | nil => exact trivial
  | cons e es ih =>
    rw [List.forall_mem_cons] at h
    exact ⟨h.1, ih h.2⟩

theorem Along.left {cond : σ → α → Prop} {s : σ} {es es' : List α} (h : Along next cond s (es ++ es')) :
    Along next cond s es := by
  induction es generalizing s with
  | nil => exact trivial
  | cons e es ih => exact ⟨h.1, ih h.2⟩

theorem Along.right {cond : σ → α → Prop} {s : σ} {es es' : List α} (h : Along next cond s (es ++ es')) :
    Along next cond (runEvents next s es) es' := by
  induction es generalizing s with
  | nil => exact h
  | cons e es ih => exact ih h.2

/-- What every step that meets the condition preserves, every such run preserves. -/
theorem Along.invariant {cond : σ → α → Prop} (inv : σ → Prop) (hstep : ∀ s e, cond s e → inv s → inv (next s e))
    {s : σ} {es : List α} (h : Along next cond s es) (hs : inv s) : inv (runEvents next s es) := by
  induction es generalizing s with
  | nil => exact hs
  | cons e es ih => exact ih h.2 (hstep s e h.1 hs)

/-- A relation between the states before and after a step, reflexive and transitive, relates the ends of a run. -/
theorem Along.relation {cond : σ → α → Prop} (inv : σ → Prop) (R : σ → σ → Prop) (hrefl : ∀ s, R s s)
    (htrans : ∀ s t v, R s t → R t v → R s v) (hinv : ∀ s e, cond s e → inv s → inv (next s e))
    (hstep : ∀ s e, cond s e → inv s → R s (next s e)) {s : σ} {es : List α} (h : Along next cond s es) (hs : inv s) :
    R s (runEvents next s es) := by
  induction es generalizing s with
  | nil => exact hrefl s
  | cons e es ih => exact htrans _ _ _ (hstep s e h.1 hs) (ih h.2 (hinv s e h.1 hs))

/-- If every step that meets the condition does some of the work, such a run is no longer than the work is at its
start. -/
theorem Along.length_add_work_le {cond : σ → α → Prop} (inv : σ → Prop) (work : σ → Nat)
    (hstep : ∀ s e, cond s e → inv s → inv (next s e) ∧ work (next s e) < work s) {s : σ} {es : List α}
    (h : Along next cond s es) (hs : inv s) :
    inv (runEvents next s es) ∧ es.length + work (runEvents next s es) ≤ work s := by
  induction es generalizing s with
  | nil => exact ⟨hs, by simp [runEvents]⟩
  | cons e es ih =>
    obtain ⟨hinv, hlt⟩ := hstep s e h.1 hs
    obtain ⟨hinv', hle⟩ := ih h.2 hinv
    refine ⟨hinv', ?_⟩
    have hrun : runEvents next s (e :: es) = runEvents next (next s e) es := rfl
    rw [hrun, List.length_cons]
    omega

/-- What every step preserves, every run preserves. -/
theorem runEvents_invariant {inv : σ → Prop} (hstep : ∀ s e, inv s → inv (next s e)) {s : σ} (hs : inv s)
    (es : List α) :
    inv (runEvents next s es) := by
  induction es generalizing s with
  | nil => exact hs
  | cons e es ih => exact ih (hstep s e hs)

theorem runEvents_concat (s : σ) (es : List α) (e : α) :
    runEvents next s (es ++ [e]) = next (runEvents next s es) e :=
  runEvents_append s es [e]

/-- What holds of a run and its last state, step by step. -/
theorem runEvents_induction {s : σ} {P : List α → σ → Prop} (hnil : P [] s)
    (hstep : ∀ es e, P es (runEvents next s es) → P (es ++ [e]) (next (runEvents next s es) e)) (es : List α) :
    P es (runEvents next s es) := by
  induction es using List.reverseRecOn with
  | nil => exact hnil
  | append_singleton es e ih =>
    rw [runEvents_concat]
    exact hstep es e ih

/-- A part of the state whose steps are runs of another system, runs as that system does. -/
theorem runEvents_part {τ β : Type} {next' : τ → β → τ} (part : σ → τ)
    (h : ∀ s e, ∃ es', part (next s e) = runEvents next' (part s) es') (s : σ) (es : List α) :
    ∃ es', part (runEvents next s es) = runEvents next' (part s) es' := by
  induction es generalizing s with
  | nil => exact ⟨[], rfl⟩
  | cons e es ih =>
    obtain ⟨es₁, h₁⟩ := h s e
    obtain ⟨es₂, h₂⟩ := ih (next s e)
    refine ⟨es₁ ++ es₂, ?_⟩
    rw [runEvents_append, ← h₁]
    exact h₂

variable (next) in
/-- At some moment of a run. -/
def Sometime (P : σ → Prop) (s : σ) (es : List α) : Prop := ∃ es₁ es₂, es = es₁ ++ es₂ ∧ P (runEvents next s es₁)

theorem sometime_now {P : σ → Prop} {s : σ} {es : List α} (h : P (runEvents next s es)) : Sometime next P s es :=
  ⟨es, [], (List.append_nil es).symm, h⟩

theorem Sometime.append {P : σ → Prop} {s : σ} {es : List α} (h : Sometime next P s es) (es' : List α) :
    Sometime next P s (es ++ es') := by
  obtain ⟨es₁, es₂, rfl, hP⟩ := h
  exact ⟨es₁, es₂ ++ es', List.append_assoc .., hP⟩

variable (next) in
/-- The number of steps of a run that count. -/
def countAlong (counts : σ → α → Bool) : σ → List α → Nat
  | _, [] => 0
  | s, e :: es => (if counts s e then 1 else 0) + countAlong counts (next s e) es

/-- If no step adds to the work that is left, and every step that counts does some of it, then so much of it is
done. -/
theorem work_le_sub_countAlong (inv : σ → Prop) (work : σ → Nat) (counts : σ → α → Bool)
    (hstep : ∀ s e, inv s → inv (next s e) ∧ work (next s e) ≤ work s - if counts s e then 1 else 0) {s : σ}
    (hs : inv s) (es : List α) :
    inv (runEvents next s es) ∧ work (runEvents next s es) ≤ work s - countAlong next counts s es := by
  induction es generalizing s with
  | nil => exact ⟨hs, Nat.le_refl _⟩
  | cons e es ih =>
    obtain ⟨hinv, hfirst⟩ := hstep s e hs
    obtain ⟨hinv', hrest⟩ := ih hinv
    rw [countAlong]
    exact ⟨hinv', hrest.trans (by omega)⟩

end Runs

section Traces

variable {σ α β : Type} (step : σ → α → σ × β)

/-- The inputs with their outputs. -/
def trace : σ → List α → List (α × β)
  | _, [] => []
  | s, a :: as => (a, (step s a).2) :: trace (step s a).1 as

/-- The state after some inputs. -/
abbrev stateAfter (s : σ) (as : List α) : σ := runEvents (fun s a => (step s a).1) s as

variable {step}

theorem trace_append (s : σ) (as bs : List α) :
    trace step s (as ++ bs) = trace step s as ++ trace step (stateAfter step s as) bs := by
  induction as generalizing s with
  | nil => rfl
  | cons a as ih => rw [List.cons_append, trace, trace, ih, List.cons_append]; rfl

theorem map_fst_trace (s : σ) (as : List α) : (trace step s as).map Prod.fst = as := by
  induction as generalizing s with
  | nil => rfl
  | cons a as ih => rw [trace, List.map_cons, ih]

/-- The first part of a trace is the trace of the first part of the inputs. -/
theorem trace_eq_append {s : σ} {as : List α} {t t' : List (α × β)} (h : trace step s as = t ++ t') :
    ∃ bs bs', as = bs ++ bs' ∧ trace step s bs = t ∧ trace step (stateAfter step s bs) bs' = t' := by
  have has : as = t.map Prod.fst ++ t'.map Prod.fst := by
    rw [← List.map_append, ← h, map_fst_trace]
  refine ⟨_, _, has, ?_⟩
  rw [has, trace_append] at h
  have hlen : (trace step s (t.map Prod.fst)).length = t.length := by
    rw [← List.length_map (f := Prod.fst), map_fst_trace, List.length_map]
  exact List.append_inj h hlen

/-- A relation between the state and the trace that every step preserves. -/
theorem trace_invariant {inv : σ → List (α × β) → Prop}
    (hstep : ∀ s t a, inv s t → inv (step s a).1 (t ++ [(a, (step s a).2)])) {s : σ} (hs : inv s []) (as : List α) :
    inv (stateAfter step s as) (trace step s as) := by
  induction as using List.reverseRecOn with
  | nil => exact hs
  | append_singleton as a ih =>
    rw [trace_append, stateAfter, runEvents_append]
    exact hstep _ _ a ih

end Traces

section Since

variable {α : Type} {p : α → Bool}

/-- What comes after the last element of a kind. -/
def since (p : α → Bool) (l : List α) : List α := l.rtakeWhile fun a => !p a

theorem since_concat (l : List α) (a : α) : since p (l ++ [a]) = if p a then [] else since p l ++ [a] := by
  unfold since
  cases h : p a <;> simp [h]

theorem since_append {l l' : List α} (h : ∀ a ∈ l', p a = false) : since p (l ++ l') = since p l ++ l' := by
  induction l' using List.reverseRecOn with
  | nil => simp
  | append_singleton l' a ih =>
    have ha := h a (by simp)
    rw [← List.append_assoc, since_concat, ha, ih fun b hb => h b (by simp [hb]), List.append_assoc]
    rfl

theorem not_of_mem_since {l : List α} {a : α} (h : a ∈ since p l) : p a = false := by
  have := List.mem_rtakeWhile_imp h
  simpa using this

end Since

section Latest

variable {α β : Type} {f : α → Option β}

/-- What the last element that has a value of some kind has. -/
def latest (f : α → Option β) (l : List α) : Option β := l.reverse.findSome? f

@[simp] theorem latest_nil : latest f [] = none := rfl

@[simp] theorem latest_concat (l : List α) (a : α) : latest f (l ++ [a]) = (f a).or (latest f l) := by
  unfold latest
  rw [List.reverse_concat, List.findSome?_cons]
  cases f a <;> rfl

/-- Elements without a value may be left out. -/
theorem latest_filter {p : α → Bool} (h : ∀ a, p a = false → f a = none) (l : List α) :
    latest f (l.filter p) = latest f l := by
  induction l using List.reverseRecOn with
  | nil => rfl
  | append_singleton l a ih =>
    rw [List.filter_append, latest_concat, ← ih]
    cases ha : p a with
    | false => simp [ha, h a ha]
    | true => simp [ha]

end Latest

section Leads

variable {σ : Type} (next : σ → σ)

/-- From every state with one property a system that runs by itself gets to a state with another. -/
def Leads (P Q : σ → Prop) : Prop := ∀ s, P s → ∃ k, Q (next^[k] s)

variable {next} {P Q R : σ → Prop}

theorem Leads.of_imp (h : ∀ s, P s → Q s) : Leads next P Q := fun s hs => ⟨0, h s hs⟩

theorem Leads.of_step (h : ∀ s, P s → Q (next s)) : Leads next P Q := fun s hs => ⟨1, h s hs⟩

theorem Leads.trans (h : Leads next P Q) (h' : Leads next Q R) : Leads next P R := by
  intro s hs
  obtain ⟨k, hk⟩ := h s hs
  obtain ⟨k', hk'⟩ := h' _ hk
  exact ⟨k' + k, by rwa [Function.iterate_add_apply]⟩

end Leads

section Fallible

variable {σ α ε : Type} {next : σ → α → Except ε σ}

/-- A run of steps that may fail ends with the error of its first step that fails. -/
theorem foldlM_eq_error_iff {l : List α} {s : σ} {e : ε} :
    l.foldlM next s = .error e ↔ ∃ a c b s', l = a ++ c :: b ∧ a.foldlM next s = .ok s' ∧ next s' c = .error e := by
  constructor
  · intro h
    induction l generalizing s with
    | nil => cases h
    | cons c l ih =>
      rw [List.foldlM_cons] at h
      cases hc : next s c with
      | error e' =>
        rw [hc] at h
        obtain rfl : e' = e := Except.error.inj h
        exact ⟨[], c, l, s, rfl, rfl, hc⟩
      | ok s₁ =>
        rw [hc] at h
        obtain ⟨a, c', b, s', rfl, ha, hc'⟩ := ih h
        refine ⟨c :: a, c', b, s', rfl, ?_, hc'⟩
        rw [List.foldlM_cons, hc]
        exact ha
  · rintro ⟨a, c, b, s', rfl, ha, hc⟩
    rw [List.foldlM_append, ha]
    change (c :: b).foldlM next s' = _
    rw [List.foldlM_cons, hc]
    rfl

end Fallible

end MaasBoot
