import Governance.Hierarchy.Query
import Governance.Proofs.Source
import Mathlib.Data.List.Forall2

/-!
# `Governance.Proofs.Query`: what queries give

A query runs in some state of the source and ends with an answer or an error in another
state. `Query.Ensures I q ok err` bounds the end of `q` from every state in `I`: the state
stays in `I`, an answer satisfies `ok` and an error satisfies `err`. One rule for each way
to build a query (`pure`, `throw`, `bind`, `ask`, `mapM`, `forM`) carries such bounds through
a whole operation, and `Ensures.of_ok` and `Ensures.of_error` read them off a run.

`Query.Steady q` says that the outcome of `q` does not depend on the state. `Query.Agree q q'` says
that `q` and `q'` have the same answer, if any.
`Query.Repeats R q` says that an answer of `q` is given again from each state that `R` ties to
the first one. All of them follow the same rules.
-/

set_option autoImplicit false

namespace Governance.Query

variable {σ α β : Type} {I : σ → Prop} {ok : α → Prop} {ok' : β → Prop}
  {err : HierarchyError → Prop}

/-- A bind runs the second query after an answer of the first. -/
theorem run_bind (q : Query σ α) (f : α → Query σ β) (s : σ) :
    (q >>= f).run s = match q.run s with
      | (.ok a, s') => (f a).run s'
      | (.error e, s') => (.error e, s') := by
  change (ExceptT.bindCont f (q s).1) (q s).2 = _
  change _ = match q s with
      | (.ok a, s') => (f a).run s'
      | (.error e, s') => (.error e, s')
  rcases q s with ⟨_ | _, _⟩ <;> rfl

/-- What an asset that must be there comes to, by the answer of its look-up. -/
theorem require_run (error : HierarchyError) (l : LookUp σ α) (s : σ) :
    (require error l).run s = match l s with
      | (.ok (some a), s') => (.ok a, s')
      | (.ok none, s') => (.error error, s')
      | (.error e, s') => (.error (.catalog e), s') := by
  unfold require
  rw [run_bind, ask_run]
  rcases l s with ⟨e | _ | a, s'⟩ <;> rfl

/-! ### Bounds on the end of a query -/

/-- The answer is in `ok`, or the error is in `err`. -/
def Ends (ok : α → Prop) (err : HierarchyError → Prop) : Except HierarchyError α → Prop
  | .ok a => ok a
  | .error e => err e

/-- From each state in `I` the query ends in a state in `I`, with an answer in `ok` or an
error in `err`. -/
def Ensures (I : σ → Prop) (q : Query σ α) (ok : α → Prop) (err : HierarchyError → Prop) :
    Prop :=
  ∀ s, I s → Ends ok err (q.run s).1 ∧ I (q.run s).2

namespace Ensures

/-- The bounds on a run that gave an answer. -/
theorem of_ok {q : Query σ α} (h : Ensures I q ok err) {s s' : σ} {a : α} (hs : I s)
    (hrun : q.run s = (.ok a, s')) : ok a ∧ I s' := by
  have hq := h s hs
  rwa [hrun] at hq

/-- The bounds on a run that failed. -/
theorem of_error {q : Query σ α} (h : Ensures I q ok err) {s s' : σ} {e : HierarchyError}
    (hs : I s) (hrun : q.run s = (.error e, s')) : err e ∧ I s' := by
  have hq := h s hs
  rwa [hrun] at hq

/-- A query that cannot fail has an answer. -/
theorem exists_ok {q : Query σ α} (h : Ensures I q ok fun _ => False) {s : σ} (hs : I s) :
    ∃ a s', q.run s = (.ok a, s') ∧ ok a := by
  rcases hrun : q.run s with ⟨e | a, s'⟩
  · exact (h.of_error hs hrun).1.elim
  · exact ⟨a, s', rfl, (h.of_ok hs hrun).1⟩

/-- Bounds may be made wider. -/
theorem mono {ok₂ : α → Prop} {err₂ : HierarchyError → Prop} {q : Query σ α}
    (h : Ensures I q ok err) (hok : ∀ a, ok a → ok₂ a) (herr : ∀ e, err e → err₂ e) :
    Ensures I q ok₂ err₂ := by
  intro s hs
  obtain ⟨hend, hI⟩ := h s hs
  refine ⟨?_, hI⟩
  cases hr : (q.run s).1 with
  | error e =>
    rw [hr] at hend
    exact herr e hend
  | ok a =>
    rw [hr] at hend
    exact hok a hend

/-- Two bounds hold together. -/
theorem and {ok₂ : α → Prop} {q : Query σ α} (h : Ensures I q ok err) (h₂ : Ensures I q ok₂ err) :
    Ensures I q (fun a => ok a ∧ ok₂ a) err := by
  intro s hs
  obtain ⟨hend, hI⟩ := h s hs
  have hend₂ := (h₂ s hs).1
  refine ⟨?_, hI⟩
  -- Both bounds are about the one run.
  cases hr : (q.run s).1 with
  | error e =>
    rw [hr] at hend
    exact hend
  | ok a =>
    rw [hr] at hend hend₂
    exact ⟨hend, hend₂⟩

/-- Every query ends. -/
theorem any (q : Query σ α) : Ensures (fun _ => True) q (fun _ => True) fun _ => True := by
  intro s _
  refine ⟨?_, trivial⟩
  cases (q.run s).1 <;> exact trivial

/-- An answer is within its bound. -/
theorem pure {a : α} (h : ok a) : Ensures I (pure a : Query σ α) ok err :=
  fun _ hs => ⟨h, hs⟩

/-- A failure is within its bound. -/
theorem throw {e : HierarchyError} (h : err e) : Ensures I (throw e : Query σ α) ok err :=
  fun _ hs => ⟨h, hs⟩

/-- The answer of one query within its bound leads to another one. -/
theorem bind {q : Query σ α} {f : α → Query σ β} (hq : Ensures I q ok err)
    (hf : ∀ a, ok a → Ensures I (f a) ok' err) : Ensures I (q >>= f) ok' err := by
  intro s hs
  rw [run_bind]
  -- The second query runs only after an answer.
  rcases hrun : q.run s with ⟨e | a, s'⟩
  · exact hq.of_error hs hrun
  · obtain ⟨ha, hs'⟩ := hq.of_ok hs hrun
    exact hf a ha s' hs'

/-- The rest of a query sees every answer of a query without a bound on it. -/
theorem bind_any {q : Query σ α} {f : α → Query σ β} (hq : Ensures I q (fun _ => True) err)
    (hf : ∀ a, Ensures I (f a) ok' err) : Ensures I (q >>= f) ok' err :=
  hq.bind fun a _ => hf a

/-- A result that is at hand already. -/
theorem ofExcept {r : Except HierarchyError α} (hok : ∀ a, r = .ok a → ok a)
    (herr : ∀ e, r = .error e → err e) :
    Ensures I (MonadExcept.ofExcept r : Query σ α) ok err := by
  cases r with
  | ok a => exact pure (hok a rfl)
  | error e => exact throw (herr e rfl)

/-- Queries over a list: the answers are bounded one by one. -/
theorem mapM {f : α → Query σ β} {P : α → β → Prop} {l : List α}
    (h : ∀ a ∈ l, Ensures I (f a) (P a) err) :
    Ensures I (l.mapM f) (List.Forall₂ P l) err := by
  induction l with
  | nil => exact pure List.Forall₂.nil
  | cons a rest ih =>
    rw [List.mapM_cons]
    refine (h a (by simp)).bind fun b hb => ?_
    refine (ih fun a' ha' => h a' (List.mem_cons_of_mem _ ha')).bind fun bs hbs => ?_
    exact pure (List.Forall₂.cons hb hbs)

/-- Queries over a list, each with one answer, which shows something of the item. -/
theorem mapM_eq_and {f : α → Query σ β} {g : α → β} {shown : α → Prop} {l : List α}
    (h : ∀ a ∈ l, Ensures I (f a) (fun b => b = g a ∧ shown a) err) :
    Ensures I (l.mapM f) (fun bs => bs = l.map g ∧ ∀ a ∈ l, shown a) err := by
  refine (mapM h).mono (fun bs hbs => ?_) fun _ he => he
  induction hbs with
  | nil => simp
  | cons hab _ ih =>
    obtain ⟨rfl, hshown⟩ := hab
    obtain ⟨rfl, hrest⟩ := ih fun a ha => h a (List.mem_cons_of_mem _ ha)
    exact ⟨rfl, List.forall_mem_cons.mpr ⟨hshown, hrest⟩⟩

/-- Queries over a list, each with one answer. -/
theorem mapM_eq {f : α → Query σ β} {g : α → β} {l : List α}
    (h : ∀ a ∈ l, Ensures I (f a) (fun b => b = g a) err) :
    Ensures I (l.mapM f) (fun bs => bs = l.map g) err :=
  (mapM_eq_and fun a ha => (h a ha).mono (fun _ hb => ⟨hb, trivial⟩) fun _ he => he).mono
    (fun _ hbs => hbs.1) fun _ he => he

/-- Queries over the entries of a map, each with an answer that hangs on a choice. One
function makes the choices for all keys. -/
theorem mapM_entries {κ γ : Type} [Ord κ] [Std.TransOrd κ] [Std.LawfulEqOrd κ] [DecidableEq κ]
    [Inhabited γ] {m : OrderedMap κ α} {f : κ × α → Query σ β} {P : κ → α → γ → Prop}
    {g : κ × α → γ → β}
    (h : ∀ e ∈ m.entries, Ensures I (f e) (fun b => ∃ c, P e.1 e.2 c ∧ b = g e c) err) :
    Ensures I (m.entries.mapM f)
      (fun bs => ∃ choice : κ → γ, (∀ k v, m.get? k = some v → P k v (choice k)) ∧
        bs = m.entries.map fun e => g e (choice e.1)) err := by
  refine (mapM h).mono (fun bs hbs => ?_) fun _ he => he
  suffices hchoice : ∃ choice : κ → γ, (∀ e ∈ m.entries, P e.1 e.2 (choice e.1)) ∧
      bs = m.entries.map fun e => g e (choice e.1) by
    obtain ⟨choice, hP, heq⟩ := hchoice
    exact ⟨choice, fun k v hk => hP (k, v) (OrderedMap.get?_eq_some_iff.mp hk), heq⟩
  obtain ⟨l, hl⟩ := m
  clear h
  dsimp only at hbs ⊢
  induction hbs with
  | nil => exact ⟨fun _ => default, by simp, rfl⟩
  | @cons e b rest bs he _ ih =>
    obtain ⟨hhead, htail⟩ := List.pairwise_cons.mp hl
    obtain ⟨choice, hP, rfl⟩ := ih htail
    obtain ⟨c, hc, rfl⟩ := he
    -- The keys of the rest are others, so the choice for the first leaves theirs alone.
    have hne : ∀ e' ∈ rest, e'.1 ≠ e.1 := fun e' he' heq => by
      have hlt := hhead e' he'
      simp [heq] at hlt
    refine ⟨Function.update choice e.1 c, fun e' he' => ?_, ?_⟩
    · rcases List.mem_cons.mp he' with rfl | he'
      · rwa [Function.update_self]
      · rw [Function.update_of_ne (hne e' he')]
        exact hP e' he'
    · rw [List.map_cons, Function.update_self]
      congr 1
      refine List.map_congr_left fun e' he' => ?_
      rw [Function.update_of_ne (hne e' he')]

/-- Every answer of queries over a list is the answer for one item. -/
theorem mapM_mem {f : α → Query σ β} {P : α → β → Prop} {l : List α}
    (h : ∀ a ∈ l, Ensures I (f a) (P a) err) :
    Ensures I (l.mapM f) (fun bs => ∀ b ∈ bs, ∃ a ∈ l, P a b) err := by
  refine (mapM h).mono (fun bs hbs => ?_) fun _ he => he
  induction hbs with
  | nil => simp
  | cons hab _ ih =>
    intro b hb
    rcases List.mem_cons.mp hb with rfl | hb
    · exact ⟨_, by simp, hab⟩
    · obtain ⟨a, ha, hP⟩ := ih (fun a ha => h a (List.mem_cons_of_mem _ ha)) b hb
      exact ⟨a, List.mem_cons_of_mem _ ha, hP⟩

/-- Checks over a list: each of them passes. -/
theorem forM {f : α → Query σ PUnit} {P : α → Prop} {l : List α}
    (h : ∀ a ∈ l, Ensures I (f a) (fun _ => P a) err) :
    Ensures I (l.forM f) (fun _ => ∀ a ∈ l, P a) err := by
  induction l with
  | nil => exact pure (by simp)
  | cons a rest ih =>
    rw [List.forM]
    refine (h a (by simp)).bind fun _ ha => ?_
    refine (ih fun a' ha' => h a' (List.mem_cons_of_mem _ ha')).mono (fun _ hrest => ?_)
      fun _ he => he
    simpa using ⟨ha, hrest⟩

/-- An asset that is asked for is an answer of its look-up. -/
theorem ask {l : LookUp σ α} (hI : l.Keeps I) {ok : Option α → Prop}
    (hok : ∀ s o, (l s).1 = .ok o → ok o)
    (herr : ∀ s e, (l s).1 = .error e → err (.catalog e)) : Ensures I (ask l) ok err := by
  intro s hs
  rw [ask_run]
  refine ⟨?_, hI s hs⟩
  cases hl : (l s).1 with
  | error e => exact herr s e hl
  | ok o => exact hok s o hl

/-- An asset that is required is an answer of its look-up. -/
theorem require {l : LookUp σ α} {error : HierarchyError} (hI : l.Keeps I)
    (hok : ∀ s a, (l s).1 = .ok (some a) → ok a)
    (hmissing : ∀ s, (l s).1 = .ok none → err error)
    (herr : ∀ s e, (l s).1 = .error e → err (.catalog e)) :
    Ensures I (require error l) ok err := by
  have hask : Ensures I (Query.ask l) (fun o => ∃ s, (l s).1 = .ok o) err :=
    ask hI (fun s o h => ⟨s, h⟩) herr
  refine hask.bind ?_
  rintro (_ | a) ⟨s, hs⟩
  · exact throw (hmissing s hs)
  · exact pure (hok s a hs)

end Ensures

/-- A look-up of what is there does not fail. -/
theorem require_found {l : LookUp σ α} {a : α} (hl : ∀ s, (l s).1 = .ok (some a))
    (hI : l.Keeps I) (error : HierarchyError) :
    Ensures I (require error l) (fun b => b = a) err := by
  refine .require hI (fun s b hb => ?_) (fun s hs => ?_) fun s e hs => ?_
  · rw [hl s] at hb
    exact (Option.some.inj (Except.ok.inj hb)).symm
  · simp [hl s] at hs
  · simp [hl s] at hs

/-- A steady look-up of what must be there ends with the answer, or there is none. -/
theorem require_steady {l : LookUp σ α} (hl : l.Steady) (error : HierarchyError) :
    Ensures (fun _ => True) (require error l) l.Answers fun _ => ¬ ∃ a, l.Answers a := by
  refine .require (fun _ _ => trivial) (fun s _ h => ⟨s, h⟩) ?_ ?_
  · rintro s hs ⟨a, ha⟩
    simp [hl.always ha s] at hs
  · rintro s e hs ⟨a, ha⟩
    simp [hl.always ha s] at hs

/-! ### The signal to stop -/

/-- A check for the signal leaves the source as it is. -/
theorem checkStopped_run (src : AssetSource σ) (s : σ) :
    (checkStopped src).run s = (if src.stopped s then .error .cancelled else .ok (), s) := by
  have hget : (get : Query σ σ).run s = (.ok s, s) := rfl
  unfold checkStopped
  rw [run_bind, hget]
  dsimp only
  split <;> rfl

/-- A check for the signal fails only where the signal is given. -/
theorem checkStopped_ensures {src : AssetSource σ}
    (h : ∀ s, I s → src.stopped s = true → err .cancelled) :
    Ensures I (checkStopped src) (fun _ => True) err := by
  intro s hs
  rw [checkStopped_run]
  refine ⟨?_, hs⟩
  split
  · exact h s hs ‹_›
  · trivial

/-! ### Outcomes that do not depend on the state -/

/-- The outcome is the same in all states. -/
def Steady (q : Query σ α) : Prop := ∀ s s', (q.run s).1 = (q.run s').1

namespace Steady

/-- An answer does not depend on the state. -/
theorem pure (a : α) : Steady (pure a : Query σ α) := fun _ _ => rfl

/-- A failure does not depend on the state. -/
theorem throw (e : HierarchyError) : Steady (throw e : Query σ α) := fun _ _ => rfl

/-- Steady queries one after the other are steady. -/
theorem bind {q : Query σ α} {f : α → Query σ β} (hq : q.Steady) (hf : ∀ a, (f a).Steady) :
    Steady (q >>= f) := by
  intro s s'
  have h := hq s s'
  rw [run_bind, run_bind]
  rcases hs : q.run s with ⟨e | a, t⟩ <;> rcases hs' : q.run s' with ⟨e' | a', t'⟩ <;>
    simp only [hs, hs', reduceCtorEq, Except.error.injEq, Except.ok.injEq] at h ⊢
  · exact h
  · subst h
    exact hf a t t'

/-- Steady queries for all items of a list are steady. -/
theorem mapM {f : α → Query σ β} (h : ∀ a, (f a).Steady) (l : List α) : Steady (l.mapM f) := by
  induction l with
  | nil => exact pure []
  | cons a rest ih =>
    rw [List.mapM_cons]
    exact (h a).bind fun b => ih.bind fun bs => pure (b :: bs)

/-- Steady queries without answers, for all items of a list, are steady. -/
theorem forM {f : α → Query σ PUnit} (h : ∀ a, (f a).Steady) (l : List α) :
    Steady (l.forM f) := by
  induction l with
  | nil => exact pure _
  | cons a rest ih =>
    rw [List.forM]
    exact (h a).bind fun _ => ih

/-- To require something of a steady look-up is steady. -/
theorem require {l : LookUp σ α} (h : l.Steady) (error : HierarchyError) :
    Steady (require error l) := by
  refine bind (fun s s' => ?_) ?_
  · rw [ask_run, ask_run, h s s']
  · rintro (_ | a)
    · exact throw error
    · exact pure a

end Steady

/-! ### Queries with the same answer -/

/-- From all states both queries fail, or both give the same answer. They may fail for different
reasons, and may ask the source different things. -/
def Agree (q q' : Query σ α) : Prop := ∀ s s', (q.run s).1.toOption = (q'.run s').1.toOption

/-- A query with one outcome agrees with itself. -/
theorem Steady.agree {q : Query σ α} (h : q.Steady) : Agree q q :=
  fun s s' => congrArg Except.toOption (h s s')

namespace Agree

/-- Queries that agree end alike: both with one answer, or both with an error. -/
theorem cases {q q' : Query σ α} (h : Agree q q') (s s' : σ) :
    (∃ a t t', q.run s = (.ok a, t) ∧ q'.run s' = (.ok a, t')) ∨
    ∃ e e' t t', q.run s = (.error e, t) ∧ q'.run s' = (.error e', t') := by
  have hoption := h s s'
  rcases hs : q.run s with ⟨e | a, t⟩ <;> rcases hs' : q'.run s' with ⟨e' | a', t'⟩ <;>
    rw [hs, hs'] at hoption
  · exact .inr ⟨e, e', t, t', rfl, rfl⟩
  · cases hoption
  · cases hoption
  · obtain rfl : a = a' := Option.some.inj hoption
    exact .inl ⟨a, t, t', rfl, rfl⟩

/-- An answer agrees with itself. -/
theorem pure (a : α) : Agree (pure a : Query σ α) (pure a) := (Steady.pure a).agree

/-- Two failures agree. -/
theorem throw (e e' : HierarchyError) : Agree (throw e : Query σ α) (throw e') := fun _ _ => rfl

/-- Queries that agree step by step agree. -/
theorem bind {q q' : Query σ α} {f f' : α → Query σ β} (hq : Agree q q')
    (hf : ∀ a, Agree (f a) (f' a)) : Agree (q >>= f) (q' >>= f') := by
  intro s s'
  rw [run_bind, run_bind]
  obtain ⟨a, t, t', hs, hs'⟩ | ⟨e, e', t, t', hs, hs'⟩ := hq.cases s s'
  · rw [hs, hs']
    exact hf a t t'
  · rw [hs, hs']
    rfl

/-- Queries that agree for items that correspond agree for their lists. -/
theorem mapM {γ : Type} {f : α → Query σ γ} {f' : β → Query σ γ} {l : List α} {l' : List β}
    (h : List.Forall₂ (fun a b => Agree (f a) (f' b)) l l') : Agree (l.mapM f) (l'.mapM f') := by
  induction h with
  | nil => exact pure []
  | cons hab _ ih =>
    rw [List.mapM_cons, List.mapM_cons]
    exact hab.bind fun c => ih.bind fun cs => pure (c :: cs)

/-- Queries without answers that agree for each item agree for the list. -/
theorem forM {f f' : α → Query σ PUnit} (h : ∀ a, Agree (f a) (f' a)) (l : List α) :
    Agree (l.forM f) (l.forM f') := by
  induction l with
  | nil => exact pure _
  | cons a rest ih =>
    rw [List.forM, List.forM]
    exact (h a).bind fun _ => ih

/-- Two errors for a missing asset make no difference. -/
theorem require {l : LookUp σ α} (h : l.Steady) (error error' : HierarchyError) :
    Agree (require error l) (require error' l) := by
  refine bind (fun s s' => ?_) ?_
  · rw [ask_run, ask_run, h s s']
  · rintro (_ | a)
    · exact throw error error'
    · exact pure a

end Agree

/-! ### Answers that are given again -/

/-- In states that `R` ties, an answer of the query is given again. A failure need not be:
it may be due to the signal to stop. -/
def Repeats (R : σ → σ → Prop) (q : Query σ α) : Prop :=
  ∀ s s', R s s' → ∀ a t, q.run s = (.ok a, t) → ∃ t', q.run s' = (.ok a, t') ∧ R t t'

namespace Repeats

variable {R : σ → σ → Prop}

/-- An answer is given again. -/
theorem pure (a : α) : Repeats R (pure a : Query σ α) := by
  intro s s' hR b t hrun
  cases hrun
  exact ⟨s', rfl, hR⟩

/-- A failure has no answer to give again. -/
theorem throw (e : HierarchyError) : Repeats R (throw e : Query σ α) := by
  intro s s' _ a t hrun
  cases hrun

/-- Queries one after the other repeat where both do. -/
theorem bind {q : Query σ α} {f : α → Query σ β} (hq : q.Repeats R)
    (hf : ∀ a, (f a).Repeats R) : Repeats R (q >>= f) := by
  intro s s' hR b t hrun
  rw [run_bind] at hrun
  rcases hs : q.run s with ⟨e | a, u⟩ <;> simp only [hs] at hrun
  · cases hrun
  · obtain ⟨u', hs', hR'⟩ := hq s s' hR a u hs
    obtain ⟨t', hrun', ht⟩ := hf a u u' hR' b t hrun
    exact ⟨t', by rw [run_bind, hs']; exact hrun', ht⟩

/-- Queries for all items of a list repeat where each of them does. -/
theorem mapM {f : α → Query σ β} (h : ∀ a, (f a).Repeats R) (l : List α) :
    Repeats R (l.mapM f) := by
  induction l with
  | nil => exact pure []
  | cons a rest ih =>
    rw [List.mapM_cons]
    exact (h a).bind fun b => ih.bind fun bs => pure (b :: bs)

/-- What was required is found again where the look-up repeats. -/
theorem require {l : LookUp σ α} (h : l.Repeats R) (error : HierarchyError) :
    Repeats R (require error l) := by
  refine bind (fun s s' hR a t hrun => ?_) ?_
  · obtain ⟨hanswer, hR'⟩ := h s s' hR
    rw [ask_run, Prod.mk.injEq] at hrun
    rw [ask_run, hanswer, hrun.1]
    exact ⟨_, rfl, hrun.2 ▸ hR'⟩
  · rintro (_ | a)
    · exact throw error
    · exact pure a

/-- A check for the signal that was passed is passed again, if no new signal is given. -/
theorem checkStopped {src : AssetSource σ}
    (h : ∀ s s', R s s' → src.stopped s' = true → src.stopped s = true) :
    Repeats R (checkStopped src) := by
  intro s s' hR a t hrun
  rw [checkStopped_run, Prod.mk.injEq] at hrun
  obtain ⟨hanswer, rfl⟩ := hrun
  -- There was an answer, so there was no signal then, and there is none now.
  have hs : ¬ src.stopped s = true := fun hstop => by simp [hstop] at hanswer
  have hs' : ¬ src.stopped s' = true := fun hstop => hs (h s s' hR hstop)
  rw [if_neg hs] at hanswer
  exact ⟨s', by rw [checkStopped_run, if_neg hs', hanswer], hR⟩

end Repeats

end Governance.Query
