import ImportAtlas.Host
import Mathlib.Data.List.Forall2

/-!
# Acts with a state and an error

What an act that is put together does, given what its parts do: where the first part is known to
succeed, or to fail, from the state at hand; what it ends with, whichever way it ends; and where two
acts are compared. What an act gives if it succeeds, what it leaves if it fails, and how it ends
without changing anything are cases of how it ends, and their rules come from those of `Ends`.

## Key results

- `EStateM.bind_of_ok`, `EStateM.tryCatch_of_error` and the like: an act whose first part is known
- `EStateM.foldlM_total`: a fold whose steps all succeed
- `EStateM.Ends.bind`, `EStateM.Ends.tryCatch`: how an act ends, whether it succeeds or fails
- `EStateM.ends_foldlM`, `EStateM.ends_mapM_forall₂`, `EStateM.ends_filterM`: how a fold, acts for
  each element of a list, and a filter end
- `EStateM.gives_iff`, `EStateM.fails_iff`: what an act gives, and what it leaves, by how it ends
- `EStateM.Asks.bind`: how an act ends that changes nothing
- `EStateM.Follows.bind`, `EStateM.follows_foldlM`, `EStateM.follows_mapM`: two acts side by side
- `EStateM.Matches.bind`, `EStateM.Matches.tryCatch`, `EStateM.matches_foldlM`: two acts that end
  alike, also where they fail
- `EStateM.AsksAlike.bind`: two acts that end alike and change nothing
-/

namespace EStateM

variable {ε σ α β : Type} {x : EStateM ε σ α} {s s' : σ} {a : α} {e : ε}

/-- Once the first part has succeeded, what it gave is put into the second one. -/
theorem bind_of_ok (f : α → EStateM ε σ β) (h : x s = .ok a s') : (x >>= f) s = f a s' := by
  simp only [bind, EStateM.bind, h]

/-- Once the first part has failed, the second one is not run. -/
theorem bind_of_error (f : α → EStateM ε σ β) (h : x s = .error e s') :
    (x >>= f) s = .error e s' := by
  simp only [bind, EStateM.bind, h]

/-- What succeeds in two parts succeeds in both. -/
theorem bind_eq_ok_iff {f : α → EStateM ε σ β} {b : β} {s'' : σ} :
    (x >>= f) s = .ok b s'' ↔ ∃ a s', x s = .ok a s' ∧ f a s' = .ok b s'' := by
  cases hx : x s with
  | ok a s' =>
    rw [bind_of_ok f hx]
    refine ⟨fun h => ⟨a, s', rfl, h⟩, ?_⟩
    rintro ⟨_, _, ⟨rfl, rfl⟩, h⟩
    exact h
  | error e s' => simp [bind_of_error f hx]

theorem bind_get (f : σ → EStateM ε σ β) : (get >>= f) s = f s s :=
  rfl

/-- What comes next starts from the changed state. -/
theorem bind_modify (change : σ → σ) (f : Unit → EStateM ε σ β) :
    (modify change >>= f) s = f () (change s) :=
  rfl

theorem map_of_ok (f : α → β) (h : x s = .ok a s') : (f <$> x) s = .ok (f a) s' := by
  simp only [Functor.map, EStateM.map, h]

theorem map_of_error (f : α → β) (h : x s = .error e s') : (f <$> x) s = .error e s' := by
  simp only [Functor.map, EStateM.map, h]

/-- What a mapped act gives is made of what the act gives. -/
theorem map_eq_ok_iff {f : α → β} {b : β} :
    (f <$> x) s = .ok b s' ↔ ∃ a, x s = .ok a s' ∧ f a = b := by
  cases hx : x s with
  | ok a s'' =>
    rw [map_of_ok f hx]
    constructor
    · rintro ⟨⟩
      exact ⟨a, rfl, rfl⟩
    · rintro ⟨_, ⟨⟩, rfl⟩
      rfl
  | error e s'' => simp [map_of_error f hx]

theorem discard_of_ok (h : x s = .ok a s') : (discard x) s = .ok () s' := by
  simp only [discard, Functor.discard, Functor.mapConst, Function.comp, EStateM.map, h]

theorem discard_of_error (h : x s = .error e s') : (discard x) s = .error e s' := by
  simp only [discard, Functor.discard, Functor.mapConst, Function.comp, EStateM.map, h]

/-- Without an error there is nothing to handle. -/
theorem tryCatch_of_ok (handle : ε → EStateM ε σ α) (h : x s = .ok a s') :
    (tryCatch x handle) s = .ok a s' := by
  change EStateM.tryCatch x handle s = _
  delta EStateM.tryCatch
  simp only [h]

/-- What an act changes before it fails is there when its error is handled. -/
theorem tryCatch_of_error (handle : ε → EStateM ε σ α) (h : x s = .error e s') :
    (tryCatch x handle) s = handle e s' := by
  change EStateM.tryCatch x handle s = _
  delta EStateM.tryCatch
  simp only [h]
  rfl

/-- An act whose error is kept as a result succeeds where the act does. -/
theorem attempt_eq_ok_iff : (tryCatch (Except.ok <$> x) fun e => pure (Except.error e) :
    EStateM ε σ (Except ε α)) s = .ok (.ok a) s' ↔ x s = .ok a s' := by
  cases hx : x s with
  | ok b s'' =>
    rw [tryCatch_of_ok _ (map_of_ok _ hx)]
    simp
  | error e s'' =>
    rw [tryCatch_of_error _ (map_of_error _ hx)]
    exact iff_of_false nofun nofun

/-- An act for each element of a list, none of which changes the state. -/
theorem mapM_of_ok {act : α → EStateM ε σ β} {f : α → β} {l : List α}
    (h : ∀ a ∈ l, act a s = .ok (f a) s) : l.mapM act s = .ok (l.map f) s := by
  induction l with
  | nil => rfl
  | cons a l ih =>
    simp only [List.mem_cons, forall_eq_or_imp] at h
    rw [List.mapM_cons, bind_of_ok _ h.1, bind_of_ok _ (ih h.2)]
    rfl

/-- Elements that are put into acts, each of which gives its element back. -/
theorem mapM_map_of_ok {act : α → EStateM ε σ β} {put : β → α} {l : List β}
    (h : ∀ b ∈ l, act (put b) s = .ok b s) : (l.map put).mapM act s = .ok l s := by
  induction l with
  | nil => rfl
  | cons b l ih =>
    simp only [List.mem_cons, forall_eq_or_imp] at h
    rw [List.map_cons, List.mapM_cons, bind_of_ok _ h.1, bind_of_ok _ (ih h.2)]
    rfl

/-- A question for each element of a list, none of which changes the state. -/
theorem filterM_of_ok {keep : α → EStateM ε σ Bool} {p : α → Bool} {l : List α}
    (h : ∀ a ∈ l, keep a s = .ok (p a) s) : l.filterM keep s = .ok (l.filter p) s := by
  -- The filter gathers what it keeps in reverse, so the induction is over what is kept so far.
  have haux : ∀ (l kept : List α), (∀ a ∈ l, keep a s = .ok (p a) s) →
      l.filterAuxM keep kept s = .ok ((l.filter p).reverse ++ kept) s := by
    intro l
    induction l with
    | nil => exact fun kept _ => rfl
    | cons a l ih =>
      intro kept h
      simp only [List.mem_cons, forall_eq_or_imp] at h
      rw [List.filterAuxM, bind_of_ok _ h.1, ih _ h.2]
      cases hkeep : p a <;> simp [hkeep]
  rw [List.filterM, bind_of_ok _ (haux l [] h), List.append_nil, List.reverse_reverse]
  rfl

/-! ## How an act ends -/

/-- An act ends with one property if it succeeds, and with another one if it fails. -/
def Ends (x : EStateM ε σ α) (s : σ) (P : α → σ → Prop) (L : ε → σ → Prop) : Prop :=
  match x s with
  | .ok a s' => P a s'
  | .error e s' => L e s'

section Ends

variable {P : α → σ → Prop} {Q : β → σ → Prop} {L : ε → σ → Prop} {f : α → EStateM ε σ β}

/-- To know how an act ends it is enough to know its result, here that of success. -/
theorem ends_of_ok (h : x s = .ok a s') (hP : P a s') : Ends x s P L := by
  unfold Ends
  rwa [h]

/-- The same of the result of failure. -/
theorem ends_of_error (h : x s = .error e s') (hL : L e s') : Ends x s P L := by
  unfold Ends
  rwa [h]

/-- How an act ends is told of its result if it succeeds, and of its error if it fails. -/
theorem ends_iff_forall : Ends x s P L ↔
    (∀ a s', x s = .ok a s' → P a s') ∧ ∀ e s', x s = .error e s' → L e s' := by
  unfold Ends
  cases x s with
  | ok a s' => simp
  | error e s' => simp

/-- How an act ends is a property of its result. -/
theorem ends_result_iff {R : Result ε σ α → Prop} :
    Ends x s (fun a s' => R (.ok a s')) (fun e s' => R (.error e s')) ↔ R (x s) := by
  unfold Ends
  cases x s <;> rfl

/-- An act ends with its own result. -/
theorem ends_self (x : EStateM ε σ α) (s : σ) :
    Ends x s (fun a s' => x s = .ok a s') fun e s' => x s = .error e s' :=
  ends_iff_forall.2 ⟨fun _ _ h => h, fun _ _ h => h⟩

/-- What is known of how an act ends may be weakened on both sides. -/
theorem Ends.mono {P' : α → σ → Prop} {L' : ε → σ → Prop} (h : Ends x s P L)
    (hP : ∀ a s', P a s' → P' a s') (hL : ∀ e s', L e s' → L' e s') : Ends x s P' L' := by
  rw [ends_iff_forall] at h ⊢
  exact ⟨fun a s' hx => hP a s' (h.1 a s' hx), fun e s' hx => hL e s' (h.2 e s' hx)⟩

theorem ends_pure (h : P a s) : Ends (pure a : EStateM ε σ α) s P L :=
  h

theorem ends_throw (h : L e s) : Ends (throw e : EStateM ε σ α) s P L :=
  h

/-- The state is at hand for what comes next. -/
theorem ends_bind_get {f : σ → EStateM ε σ β} (h : Ends (f s) s Q L) : Ends (get >>= f) s Q L :=
  h

/-- What comes next starts from the changed state. -/
theorem ends_bind_modify {change : σ → σ} {f : Unit → EStateM ε σ β}
    (h : Ends (f ()) (change s) Q L) : Ends (modify change >>= f) s Q L :=
  h

-- What an act ends with is found by these lemmas, never by running it.
attribute [irreducible] Ends

/-- An act in two parts ends as the second one does after the first, or as the first one fails. -/
theorem Ends.bind (h : Ends x s P L) (hf : ∀ a s', P a s' → Ends (f a) s' Q L) :
    Ends (x >>= f) s Q L := by
  -- The end of the first part says where the second one starts.
  rw [ends_iff_forall] at h
  cases hx : x s with
  | ok a s' =>
    have hrest := hf a s' (h.1 a s' hx)
    rw [ends_iff_forall] at hrest ⊢
    rwa [bind_of_ok f hx]
  | error e s' => exact ends_of_error (bind_of_error f hx) (h.2 e s' hx)

/-- If the first part is known to succeed, the whole ends as the second part does from there. -/
theorem ends_bind_of_ok (h : x s = .ok a s') (hf : Ends (f a) s' Q L) : Ends (x >>= f) s Q L := by
  refine Ends.bind (P := fun b s'' => b = a ∧ s'' = s') (ends_of_ok h ⟨rfl, rfl⟩) ?_
  rintro _ _ ⟨rfl, rfl⟩
  exact hf

/-- A mapped act ends as the act does, with its value mapped. -/
theorem Ends.map {f : α → β} (h : Ends x s (fun a s' => Q (f a) s') L) : Ends (f <$> x) s Q L := by
  have hbind : f <$> x = x >>= fun a => pure (f a) := by
    rw [bind_pure_comp]
  rw [hbind]
  exact h.bind fun a s' ha => ends_pure ha

/-- What can be left of an error, once it is handled, is left by the handling. -/
theorem Ends.tryCatch {handle : ε → EStateM ε σ α} {L' : ε → σ → Prop} (h : Ends x s P L)
    (hhandle : ∀ e s', L e s' → Ends (handle e) s' P L') : Ends (tryCatch x handle) s P L' := by
  rw [ends_iff_forall] at h
  cases hx : x s with
  | ok a s' => exact ends_of_ok (tryCatch_of_ok handle hx) (h.1 a s' hx)
  -- The handler goes on from the state that the error left.
  | error e s' =>
    have hrest := hhandle e s' (h.2 e s' hx)
    rw [ends_iff_forall] at hrest ⊢
    rwa [tryCatch_of_error handle hx]

section Lists

variable {γ : Type} {l : List γ} {I : σ → Prop}

/-- A fold keeps what each of its steps keeps. -/
theorem ends_foldlM {step : α → γ → EStateM ε σ α}
    (hstep : ∀ c ∈ l, ∀ a s, P a s → Ends (step a c) s P L) (h : P a s) :
    Ends (l.foldlM step a) s P L := by
  induction l generalizing a s with
  | nil => exact ends_pure h
  | cons c l ih =>
    simp only [List.mem_cons, forall_eq_or_imp] at hstep
    rw [List.foldlM_cons]
    exact (hstep.1 a s h).bind fun a' s' h' => ih hstep.2 h'

/-- Where each act keeps a property of the state, what is known of single results is known of all,
each with the element that it is for. -/
theorem ends_mapM_forall₂ {act : γ → EStateM ε σ β} {R : γ → β → Prop}
    (hact : ∀ c ∈ l, ∀ s, I s → Ends (act c) s (fun b s' => I s' ∧ R c b) L) (h : I s) :
    Ends (l.mapM act) s (fun bs s' => I s' ∧ List.Forall₂ R l bs) L := by
  induction l generalizing s with
  | nil => exact ends_pure ⟨h, .nil⟩
  | cons c l ih =>
    simp only [List.mem_cons, forall_eq_or_imp] at hact
    rw [List.mapM_cons]
    refine (hact.1 s h).bind fun b s' hb => ?_
    refine (ih hact.2 hb.1).bind fun bs s'' hbs => ?_
    exact ends_pure ⟨hbs.1, .cons hb.2 hbs.2⟩

/-- Where each act keeps a property of the state and gives a result that has another one, all
results have it. -/
theorem ends_mapM {act : γ → EStateM ε σ β} {R : β → Prop}
    (hact : ∀ c ∈ l, ∀ s, I s → Ends (act c) s (fun b s' => I s' ∧ R b) L) (h : I s) :
    Ends (l.mapM act) s (fun bs s' => I s' ∧ ∀ b ∈ bs, R b) L := by
  refine (ends_mapM_forall₂ (R := fun _ b => R b) hact h).mono ?_ fun _ _ he => he
  rintro bs s' ⟨hI, hbs⟩
  refine ⟨hI, fun b hb => ?_⟩
  -- Each result belongs to one element.
  rw [← List.map_snd_zip (Nat.le_of_eq hbs.length_eq.symm)] at hb
  obtain ⟨⟨c, b⟩, hcb, rfl⟩ := List.mem_map.1 hb
  exact List.forall₂_zip hbs hcb

/-- A filter keeps the elements for which the answer is yes. Each element has one answer, also one
that is in the list more than once. -/
theorem ends_filterM {keep : γ → EStateM ε σ Bool} {R : γ → Bool → Prop}
    (hkeep : ∀ c ∈ l, ∀ s, I s → Ends (keep c) s (fun b s' => I s' ∧ R c b) L) (h : I s) :
    Ends (l.filterM keep) s (fun kept s' => I s' ∧ ∃ answers, List.Forall₂ R l answers ∧
      kept = ((l.zip answers).filter (·.2)).map (·.1)) L := by
  -- What is kept so far is carried along, so the induction is over all such lists.
  have haux : ∀ (l kept : List γ) (s : σ),
      (∀ c ∈ l, ∀ s, I s → Ends (keep c) s (fun b s' => I s' ∧ R c b) L) → I s →
      Ends (l.filterAuxM keep kept) s (fun all s' => I s' ∧ ∃ answers, List.Forall₂ R l answers ∧
        all.reverse = kept.reverse ++ ((l.zip answers).filter (·.2)).map (·.1)) L := by
    intro l
    induction l with
    | nil => exact fun kept s _ h => ends_pure ⟨h, [], .nil, by simp⟩
    | cons c l ih =>
      intro kept s hkeep h
      simp only [List.mem_cons, forall_eq_or_imp] at hkeep
      refine (hkeep.1 s h).bind fun b s' hb => ?_
      refine (ih _ s' hkeep.2 hb.1).mono ?_ fun _ _ he => he
      rintro all s'' ⟨hI, answers, hanswers, hall⟩
      refine ⟨hI, b :: answers, .cons hb.2 hanswers, ?_⟩
      cases b <;> simpa using hall
  refine (haux l [] s hkeep h).bind ?_
  rintro all s' ⟨hI, answers, hanswers, hall⟩
  exact ends_pure ⟨hI, answers, hanswers, by simpa using hall⟩

end Lists

/-- An act that cannot fail succeeds. -/
theorem ends_false_iff :
    (Ends x s P fun _ _ => False) ↔ ∃ a s', x s = .ok a s' ∧ P a s' := by
  rw [ends_iff_forall]
  cases hx : x s with
  | ok a s' => simp
  | error e s' => simp

/-- A fold whose steps all succeed succeeds, and keeps what each of its steps keeps. -/
theorem foldlM_total {γ : Type} {step : α → γ → EStateM ε σ α} {I : α → σ → Prop} {l : List γ}
    (hstep : ∀ c ∈ l, ∀ a s, I a s → ∃ a' s', step a c s = .ok a' s' ∧ I a' s') (h : I a s) :
    ∃ a' s', l.foldlM step a s = .ok a' s' ∧ I a' s' :=
  ends_false_iff.1 (ends_foldlM (fun c hc a s ha => ends_false_iff.2 (hstep c hc a s ha)) h)

/-- Acts for each element of a list that all succeed, and keep a property of the state. -/
theorem mapM_total {γ : Type} {act : γ → EStateM ε σ β} {l : List γ} {I : σ → Prop}
    (hact : ∀ c ∈ l, ∀ s, I s → ∃ b s', act c s = .ok b s' ∧ I s') (h : I s) :
    ∃ bs s', l.mapM act s = .ok bs s' ∧ I s' := by
  obtain ⟨bs, s', hbs, hI, -⟩ := ends_false_iff.1 (ends_mapM (R := fun _ => True)
    (fun c hc s hs => ends_false_iff.2 (by simpa using hact c hc s hs)) h)
  exact ⟨bs, s', hbs, hI⟩

/-! ## What is given in case of success -/

/-- What an act gives, if it succeeds, has a property, together with the state that it leaves. -/
def Gives (x : EStateM ε σ α) (s : σ) (P : α → σ → Prop) : Prop :=
  ∀ a s', x s = .ok a s' → P a s'

/-- What an act gives is how it ends if nothing is said of its errors. -/
theorem gives_iff : Gives x s P ↔ Ends x s P fun _ _ => True := by
  rw [ends_iff_forall]
  exact ⟨fun h => ⟨h, fun _ _ _ => trivial⟩, And.left⟩

/-- What is known of what an act gives may be weakened. -/
theorem Gives.mono {P' : α → σ → Prop} (h : Gives x s P) (hP : ∀ a s', P a s' → P' a s') :
    Gives x s P' :=
  gives_iff.2 ((gives_iff.1 h).mono hP fun _ _ he => he)

/-- What the second part gives after anything that the first part can give is given by the whole. -/
theorem Gives.bind (h : Gives x s P) (hf : ∀ a s', P a s' → Gives (f a) s' Q) :
    Gives (x >>= f) s Q :=
  gives_iff.2 ((gives_iff.1 h).bind fun a s' ha => gives_iff.1 (hf a s' ha))

/-- Of the first part nothing need be known if the second one gives what is wanted anyway. -/
theorem gives_bind (hf : ∀ a s', Gives (f a) s' Q) : Gives (x >>= f) s Q :=
  Gives.bind (P := fun _ _ => True) (fun _ _ _ => trivial) fun a s' _ => hf a s'

theorem gives_pure (h : P a s) : Gives (pure a : EStateM ε σ α) s P :=
  gives_iff.2 (ends_pure h)

theorem gives_get : Gives (get : EStateM ε σ σ) s fun a s' => a = s ∧ s' = s :=
  gives_iff.2 (ends_of_ok (a := s) rfl ⟨rfl, rfl⟩)

/-- What a mapped act gives is what the act gives, mapped. -/
theorem Gives.map {f : α → β} (h : Gives x s fun a s' => Q (f a) s') : Gives (f <$> x) s Q :=
  gives_iff.2 (gives_iff.1 h).map

/-- An act whose value is thrown away leaves the state that it leaves. -/
theorem Gives.discard {I : σ → Prop} (h : Gives x s fun _ s' => I s') :
    Gives (discard x) s fun _ s' => I s' :=
  Gives.map (f := fun _ => ()) h

/-- Where an act fails nothing is claimed. -/
theorem gives_throw (e : ε) : Gives (throw e : EStateM ε σ α) s P :=
  gives_iff.2 (ends_throw trivial)

/-- What is given is given by the act itself, or by what handles its error. -/
theorem Gives.tryCatch {handle : ε → EStateM ε σ α} (h : Gives x s P)
    (hhandle : ∀ e s', x s = .error e s' → Gives (handle e) s' P) :
    Gives (tryCatch x handle) s P := by
  have hends : Ends x s P fun e s' => x s = .error e s' :=
    ends_iff_forall.2 ⟨h, fun _ _ he => he⟩
  exact gives_iff.2 (hends.tryCatch fun e s' he => gives_iff.1 (hhandle e s' he))

section Lists

variable {γ : Type} {l : List γ}

/-- A fold gives what each of its steps keeps. -/
theorem gives_foldlM {step : α → γ → EStateM ε σ α}
    (hstep : ∀ c ∈ l, ∀ a s, P a s → Gives (step a c) s P) (h : P a s) :
    Gives (l.foldlM step a) s P :=
  gives_iff.2 (ends_foldlM (fun c hc a s ha => gives_iff.1 (hstep c hc a s ha)) h)

/-- Acts for each element of a list, each of which keeps a property of the state, give results that
have what each of them has. -/
theorem gives_mapM {act : γ → EStateM ε σ β} {I : σ → Prop} {R : β → Prop}
    (hact : ∀ c ∈ l, ∀ s, I s → Gives (act c) s fun b s' => I s' ∧ R b) (h : I s) :
    Gives (l.mapM act) s fun bs s' => I s' ∧ ∀ b ∈ bs, R b :=
  gives_iff.2 (ends_mapM (fun c hc s hs => gives_iff.1 (hact c hc s hs)) h)

/-- Acts for each element of a list give results that belong to their elements one by one. -/
theorem gives_mapM_forall₂ {act : γ → EStateM ε σ β} {I : σ → Prop} {R : γ → β → Prop}
    (hact : ∀ c ∈ l, ∀ s, I s → Gives (act c) s fun b s' => I s' ∧ R c b) (h : I s) :
    Gives (l.mapM act) s fun bs s' => I s' ∧ List.Forall₂ R l bs :=
  gives_iff.2 (ends_mapM_forall₂ (fun c hc s hs => gives_iff.1 (hact c hc s hs)) h)

/-- An element is kept where its answer is yes. -/
private theorem mem_kept_iff {answers : List Bool} {c : γ} :
    c ∈ ((l.zip answers).filter (·.2)).map (·.1) ↔ (c, true) ∈ l.zip answers := by
  simp

/-- What a filter keeps was asked for and found to be right. -/
theorem gives_filterM {keep : γ → EStateM ε σ Bool} {I : σ → Prop} {R : γ → Prop}
    (hkeep : ∀ c ∈ l, ∀ s, I s → Gives (keep c) s fun b s' => I s' ∧ (b = true → R c)) (h : I s) :
    Gives (l.filterM keep) s fun kept s' => I s' ∧ ∀ c ∈ kept, R c := by
  refine gives_iff.2 ((ends_filterM (R := fun c b => b = true → R c)
    (fun c hc s hs => gives_iff.1 (hkeep c hc s hs)) h).mono ?_ fun _ _ he => he)
  rintro kept s' ⟨hI, answers, hanswers, rfl⟩
  refine ⟨hI, fun c hc => ?_⟩
  exact (List.forall₂_zip hanswers (mem_kept_iff.1 hc)) rfl

/-- Where questions change nothing, a filter keeps what is found to be right, and no less. -/
theorem gives_filterM_iff {keep : γ → EStateM ε σ Bool} {R : γ → Prop}
    (hkeep : ∀ c ∈ l, Gives (keep c) s fun b s' => s' = s ∧ (b = true ↔ R c)) :
    Gives (l.filterM keep) s fun kept s' => s' = s ∧ ∀ c, c ∈ kept ↔ c ∈ l ∧ R c := by
  have hasked : ∀ c ∈ l, ∀ t, t = s → Ends (keep c) t (fun b s' => s' = s ∧ (b = true ↔ R c))
      fun _ _ => True := by
    rintro c hc _ rfl
    exact gives_iff.1 (hkeep c hc)
  refine gives_iff.2 ((ends_filterM (R := fun c b => b = true ↔ R c) hasked rfl).mono ?_
    fun _ _ he => he)
  rintro kept s' ⟨hs, answers, hanswers, rfl⟩
  refine ⟨hs, fun c => ?_⟩
  rw [mem_kept_iff]
  constructor
  · exact fun hc => ⟨(List.of_mem_zip hc).1, (List.forall₂_zip hanswers hc).1 rfl⟩
  · -- All answers to one element are the same, so one with a yes is kept wherever it stands.
    rintro ⟨hc, hR⟩
    rw [← List.map_fst_zip (Nat.le_of_eq hanswers.length_eq)] at hc
    obtain ⟨⟨c, b⟩, hcb, rfl⟩ := List.mem_map.1 hc
    rwa [(List.forall₂_zip hanswers hcb).2 hR] at hcb

end Lists

/-! ## What is left in case of an error -/

/-- What an act leaves, if it fails, has a property, together with its error. -/
def Fails (x : EStateM ε σ α) (s : σ) (P : ε → σ → Prop) : Prop :=
  ∀ e s', x s = .error e s' → P e s'

/-- What an act leaves is how it ends if nothing is said of its success. -/
theorem fails_iff : Fails x s L ↔ Ends x s (fun _ _ => True) L := by
  rw [ends_iff_forall]
  exact ⟨fun h => ⟨fun _ _ _ => trivial, h⟩, And.right⟩

/-- How an act ends is what it gives and what it leaves. -/
theorem ends_iff : Ends x s P L ↔ Gives x s P ∧ Fails x s L :=
  ends_iff_forall

/-- How an act ends says what it gives. -/
theorem Ends.gives (h : Ends x s P L) : Gives x s P :=
  (ends_iff.1 h).1

/-- How an act ends says what it leaves if it fails. -/
theorem Ends.fails (h : Ends x s P L) : Fails x s L :=
  (ends_iff.1 h).2

/-- What is known of an error may be weakened. -/
theorem Fails.mono {L' : ε → σ → Prop} (h : Fails x s L) (hL : ∀ e s', L e s' → L' e s') :
    Fails x s L' :=
  fails_iff.2 ((fails_iff.1 h).mono (fun _ _ ha => ha) hL)

/-- An act in two parts fails in the first one, or in the second one after the first. -/
theorem Fails.bind (h : Fails x s L) (hx : Gives x s P) (hf : ∀ a s', P a s' → Fails (f a) s' L) :
    Fails (x >>= f) s L :=
  fails_iff.2 ((ends_iff.2 ⟨hx, h⟩).bind fun a s' ha => fails_iff.1 (hf a s' ha))

/-- An act fails if one of its two parts does, whatever the first one gives. -/
theorem Fails.bind_forall (h : Fails x s L) (hf : ∀ a s', Fails (f a) s' L) :
    Fails (x >>= f) s L :=
  fails_iff.2 ((fails_iff.1 h).bind fun a s' _ => fails_iff.1 (hf a s'))

theorem fails_pure (a : α) : Fails (pure a : EStateM ε σ α) s L :=
  fails_iff.2 (ends_pure trivial)

theorem fails_throw (h : L e s) : Fails (throw e : EStateM ε σ α) s L :=
  fails_iff.2 (ends_throw h)

/-- Where errors are handled, only the handling can fail. -/
theorem Fails.tryCatch {handle : ε → EStateM ε σ α}
    (h : ∀ e s', x s = .error e s' → Fails (handle e) s' L) : Fails (tryCatch x handle) s L := by
  have hends : Ends x s (fun _ _ => True) fun e s' => x s = .error e s' :=
    (ends_self x s).mono (fun _ _ _ => trivial) fun _ _ he => he
  exact fails_iff.2 (hends.tryCatch fun e s' he => fails_iff.1 (h e s' he))

/-! ## Acts that change nothing -/

/-- An act ends, and changes nothing. -/
def Asks (x : EStateM ε σ α) (s : σ) (A : α → Prop) (E : ε → Prop) : Prop :=
  Ends x s (fun a s' => s' = s ∧ A a) fun e s' => s' = s ∧ E e

section Asks

variable {A : α → Prop} {B : β → Prop} {E E' : ε → Prop}

/-- Asking succeeds or fails in the state that it starts from. -/
theorem asks_iff : Asks x s A E ↔
    (∃ a, x s = .ok a s ∧ A a) ∨ ∃ e, x s = .error e s ∧ E e := by
  unfold Asks Ends
  cases x s with
  | ok a s' =>
    constructor
    · rintro ⟨rfl, ha⟩
      exact .inl ⟨a, rfl, ha⟩
    · rintro (⟨_, ⟨⟩, ha⟩ | ⟨_, ⟨⟩, -⟩)
      exact ⟨rfl, ha⟩
  | error e s' =>
    constructor
    · rintro ⟨rfl, he⟩
      exact .inr ⟨e, rfl, he⟩
    · rintro (⟨_, ⟨⟩, -⟩ | ⟨_, ⟨⟩, he⟩)
      exact ⟨rfl, he⟩

/-- What is asked can be asked again. -/
theorem Asks.self (h : Asks x s A E) :
    Asks x s (fun a => x s = .ok a s ∧ A a) fun e => x s = .error e s ∧ E e := by
  rcases asks_iff.1 h with ⟨a, hx, ha⟩ | ⟨e, hx, he⟩
  · exact asks_iff.2 (.inl ⟨a, hx, hx, ha⟩)
  · exact asks_iff.2 (.inr ⟨e, hx, hx, he⟩)

/-- What is known of an answer, and of an error, may be weakened. -/
theorem Asks.mono {A' : α → Prop} (h : Asks x s A E) (hA : ∀ a, A a → A' a)
    (hE : ∀ e, E e → E' e) : Asks x s A' E' :=
  Ends.mono h (fun a _ ha => ⟨ha.1, hA a ha.2⟩) fun e _ he => ⟨he.1, hE e he.2⟩

theorem asks_pure (h : A a) : Asks (pure a : EStateM ε σ α) s A E :=
  ends_pure ⟨rfl, h⟩

theorem asks_throw (h : E e) : Asks (throw e : EStateM ε σ α) s A E :=
  ends_throw ⟨rfl, h⟩

theorem asks_bind_get {f : σ → EStateM ε σ β} (h : Asks (f s) s B E) : Asks (get >>= f) s B E :=
  ends_bind_get h

/-- A question may be asked after another one, in the same state. -/
theorem Asks.bind (h : Asks x s A E) (hf : ∀ a, A a → Asks (f a) s B E) :
    Asks (x >>= f) s B E := by
  refine Ends.bind h ?_
  rintro a s ⟨rfl, ha⟩
  exact hf a ha

/-- After asking one goes on from the same state. -/
theorem Asks.ends_bind {Q : β → σ → Prop} {L : ε → σ → Prop} (h : Asks x s A E)
    (hL : ∀ e, E e → L e s) (hf : ∀ a, A a → Ends (f a) s Q L) : Ends (x >>= f) s Q L := by
  rcases asks_iff.1 h with ⟨a, hx, ha⟩ | ⟨e, hx, he⟩
  · exact ends_bind_of_ok hx (hf a ha)
  · exact ends_of_error (bind_of_error f hx) (hL e he)

theorem Asks.map {f : α → β} (h : Asks x s (fun a => B (f a)) E) : Asks (f <$> x) s B E :=
  Ends.map h

/-- Asking still changes nothing when the errors are handled by asking. -/
theorem Asks.tryCatch {handle : ε → EStateM ε σ α} (h : Asks x s A E)
    (hhandle : ∀ e, E e → Asks (handle e) s A E') : Asks (tryCatch x handle) s A E' := by
  refine Ends.tryCatch h ?_
  rintro e s ⟨rfl, he⟩
  exact hhandle e he

/-- A question for each element of a list fails only where one of them does. -/
theorem asks_mapM {γ : Type} {act : γ → EStateM ε σ β} {l : List γ}
    (hact : ∀ c ∈ l, Asks (act c) s B E) : Asks (l.mapM act) s (fun bs => ∀ b ∈ bs, B b) E := by
  refine ends_mapM (I := fun s' => s' = s) (fun c hc s' hs => ?_) rfl
  subst hs
  exact hact c hc

/-- A fold that asks in each step keeps what each answer keeps. -/
theorem asks_foldlM {γ : Type} {step : α → γ → EStateM ε σ α} {l : List γ}
    (hstep : ∀ c ∈ l, ∀ a, A a → Asks (step a c) s A E) (h : A a) :
    Asks (l.foldlM step a) s A E := by
  refine ends_foldlM ?_ ⟨rfl, h⟩
  rintro c hc a s ⟨rfl, ha⟩
  exact hstep c hc a ha

/-- Questions that sort a list out fail only where one of them does. -/
theorem asks_filterM {γ : Type} {keep : γ → EStateM ε σ Bool} {l : List γ}
    (hkeep : ∀ c ∈ l, Asks (keep c) s (fun _ => True) E) :
    Asks (l.filterM keep) s (fun _ => True) E := by
  refine (ends_filterM (I := fun s' => s' = s) (R := fun _ _ => True) ?_ rfl).mono
    (fun _ _ h => ⟨h.1, trivial⟩) fun _ _ he => he
  rintro c hc _ rfl
  exact hkeep c hc

end Asks

end Ends

/-! ## Two acts side by side -/

/-- If the first act succeeds, so does the second one, and what they give is related. -/
def Follows (x : EStateM ε σ α) (s : σ) (y : EStateM ε σ β) (t : σ)
    (R : α → σ → β → σ → Prop) : Prop :=
  ∀ a s', x s = .ok a s' → ∃ b t', y t = .ok b t' ∧ R a s' b t'

/-- Where the act succeeds, it has not changed the state and does the same in any other one. -/
def IsStateless (x : EStateM ε σ α) : Prop :=
  ∀ a s s', x s = .ok a s' → s' = s ∧ ∀ t, x t = .ok a t

section Follows

variable {γ δ : Type} {t : σ} {y : EStateM ε σ β} {R : α → σ → β → σ → Prop}
  {R' : γ → σ → δ → σ → Prop}

/-- What is known of two acts side by side may be weakened. -/
theorem Follows.mono {R₁ : α → σ → β → σ → Prop} (h : Follows x s y t R)
    (hR : ∀ a s' b t', R a s' b t' → R₁ a s' b t') : Follows x s y t R₁ := by
  intro a s' hx
  obtain ⟨b, t', hy, hr⟩ := h a s' hx
  exact ⟨b, t', hy, hR a s' b t' hr⟩

/-- What the second act gives is given when it follows. -/
theorem Follows.gives {P : β → σ → Prop} (h : Follows x s y t R) (hy : Gives y t P) :
    Follows x s y t fun a s' b t' => R a s' b t' ∧ P b t' := by
  intro a s' hx
  obtain ⟨b, t', hrun, hr⟩ := h a s' hx
  exact ⟨b, t', hrun, hr, hy b t' hrun⟩

/-- Two acts in two parts go side by side if their first parts do, and their second parts after
anything that these give. -/
theorem Follows.bind {f : α → EStateM ε σ γ} {g : β → EStateM ε σ δ} (h : Follows x s y t R)
    (hf : ∀ a s' b t', R a s' b t' → Follows (f a) s' (g b) t' R') :
    Follows (x >>= f) s (y >>= g) t R' := by
  intro c s'' hc
  obtain ⟨a, s', hx, hc⟩ := bind_eq_ok_iff.1 hc
  obtain ⟨b, t', hy, hr⟩ := h a s' hx
  obtain ⟨d, t'', hd, hr'⟩ := hf a s' b t' hr c s'' hc
  exact ⟨d, t'', by rw [bind_of_ok _ hy, hd], hr'⟩

/-- Mapped acts go side by side if the acts do. -/
theorem Follows.map {f : α → γ} {g : β → δ}
    (h : Follows x s y t fun a s' b t' => R' (f a) s' (g b) t') :
    Follows (f <$> x) s (g <$> y) t R' := by
  intro c s' hc
  -- A map that ends in a value had an act that did.
  cases hx : x s with
  | ok a s'' =>
    rw [map_of_ok f hx] at hc
    cases hc
    obtain ⟨b, t', hy, hr⟩ := h a _ hx
    exact ⟨g b, t', map_of_ok g hy, hr⟩
  | error e s'' =>
    rw [map_of_error f hx] at hc
    cases hc

theorem Follows.discard {I : σ → σ → Prop}
    (h : Follows x s y t fun _ s' _ t' => I s' t') :
    Follows (discard x) s (discard y) t fun _ s' _ t' => I s' t' :=
  Follows.map (f := fun _ => ()) (g := fun _ => ()) h

/-- Two values go side by side if they are related in the states at hand. -/
theorem follows_pure {b : β} (h : R a s b t) :
    Follows (pure a : EStateM ε σ α) s (pure b : EStateM ε σ β) t R := by
  rintro _ _ ⟨⟩
  exact ⟨b, t, rfl, h⟩

/-- Nothing need follow an act that fails. -/
theorem follows_throw (e : ε) : Follows (throw e : EStateM ε σ α) s y t R :=
  nofun

theorem follows_get : Follows (get : EStateM ε σ σ) s (get : EStateM ε σ σ) t
    fun a s' b t' => a = s ∧ s' = s ∧ b = t ∧ t' = t := by
  rintro _ _ ⟨⟩
  exact ⟨t, t, rfl, rfl, rfl, rfl, rfl⟩

/-- A stateless act goes side by side with itself, from whatever other state. -/
theorem IsStateless.follows (h : IsStateless x) :
    Follows x s x t fun a s' b t' => b = a ∧ s' = s ∧ t' = t := by
  intro a s' hx
  exact ⟨a, t, (h a s s' hx).2 t, rfl, (h a s s' hx).1, rfl⟩

/-- Folds over one list keep what their steps keep. -/
theorem follows_foldlM {step : α → γ → EStateM ε σ α} {step' : β → γ → EStateM ε σ β}
    {l : List γ} {b : β}
    (hstep : ∀ c ∈ l, ∀ a s b t, R a s b t → Follows (step a c) s (step' b c) t R)
    (h : R a s b t) : Follows (l.foldlM step a) s (l.foldlM step' b) t R := by
  induction l generalizing a s b t with
  | nil => exact follows_pure h
  | cons c l ih =>
    simp only [List.mem_cons, forall_eq_or_imp] at hstep
    rw [List.foldlM_cons, List.foldlM_cons]
    exact (hstep.1 a s b t h).bind fun a' s' b' t' h' => ih hstep.2 h'

/-- Acts for each element of one list give results that are related one by one. -/
theorem follows_mapM {act : γ → EStateM ε σ α} {act' : γ → EStateM ε σ β} {l : List γ}
    {I : σ → σ → Prop} {Q : α → β → Prop}
    (hact : ∀ c ∈ l, ∀ s t, I s t →
      Follows (act c) s (act' c) t fun a s' b t' => I s' t' ∧ Q a b) (h : I s t) :
    Follows (l.mapM act) s (l.mapM act') t fun as s' bs t' => I s' t' ∧ List.Forall₂ Q as bs := by
  induction l generalizing s t with
  | nil => exact follows_pure ⟨h, .nil⟩
  | cons c l ih =>
    simp only [List.mem_cons, forall_eq_or_imp] at hact
    rw [List.mapM_cons, List.mapM_cons]
    -- The relation of the states is the invariant of the loop.
    refine (hact.1 s t h).bind fun a s' b t' hab => ?_
    refine (ih hact.2 hab.1).bind fun as s'' bs t'' hrest => ?_
    exact follows_pure ⟨hrest.1, .cons hab.2 hrest.2⟩

end Follows

theorem isStateless_pure (a : α) : IsStateless (pure a : EStateM ε σ α) := by
  rintro _ s _ ⟨⟩
  exact ⟨rfl, fun _ => rfl⟩

theorem isStateless_throw (e : ε) : IsStateless (throw e : EStateM ε σ α) :=
  nofun

/-- An act in two stateless parts is stateless. -/
theorem IsStateless.bind (h : IsStateless x) (hf : ∀ a, IsStateless (f a)) :
    IsStateless (x >>= f) := by
  intro b s s'' hb
  obtain ⟨a, s', hx, hrest⟩ := bind_eq_ok_iff.1 hb
  obtain ⟨rfl, hx'⟩ := h a s s' hx
  obtain ⟨rfl, hb'⟩ := hf a b s' s'' hrest
  refine ⟨rfl, fun t => ?_⟩
  rw [bind_of_ok _ (hx' t), hb' t]

theorem IsStateless.map (f : α → β) (h : IsStateless x) : IsStateless (f <$> x) := by
  have hbind : f <$> x = x >>= fun a => pure (f a) := by
    rw [bind_pure_comp]
  rw [hbind]
  exact h.bind fun a => isStateless_pure (f a)

/-- Stateless acts for each element of a list are stateless together. -/
theorem isStateless_mapM {γ : Type} {act : γ → EStateM ε σ β} {l : List γ}
    (h : ∀ c ∈ l, IsStateless (act c)) : IsStateless (l.mapM act) := by
  induction l with
  | nil => exact isStateless_pure []
  | cons c l ih =>
    simp only [List.mem_cons, forall_eq_or_imp] at h
    rw [List.mapM_cons]
    exact h.1.bind fun b => (ih h.2).bind fun bs => isStateless_pure (b :: bs)

/-! ## Two acts that end alike -/

/-- Results that match: both acts succeed, with values that are related, or both fail with the same
error. The states they leave are related either way. -/
inductive Matched (Q : α → β → Prop) (I : σ → σ → Prop) : Result ε σ α → Result ε σ β → Prop
  | ok {a : α} {b : β} {s t : σ} (hvalue : Q a b) (hstate : I s t) : Matched Q I (.ok a s) (.ok b t)
  | error {e : ε} {s t : σ} (hstate : I s t) : Matched Q I (.error e s) (.error e t)

/-- Two acts end with results that match. -/
def Matches (x : EStateM ε σ α) (s : σ) (y : EStateM ε σ β) (t : σ) (Q : α → β → Prop)
    (I : σ → σ → Prop) : Prop :=
  Matched Q I (x s) (y t)

section Matches

variable {γ δ : Type} {t : σ} {y : EStateM ε σ β} {Q : α → β → Prop} {Q' : γ → δ → Prop}
  {I : σ → σ → Prop}

theorem matches_pure {b : β} (hvalue : Q a b) (hstate : I s t) :
    Matches (pure a : EStateM ε σ α) s (pure b : EStateM ε σ β) t Q I :=
  .ok hvalue hstate

/-- Acts that fail with one error match. -/
theorem matches_throw (e : ε) (hstate : I s t) :
    Matches (throw e : EStateM ε σ α) s (throw e : EStateM ε σ β) t Q I :=
  .error hstate

/-- What is known of the values may be weakened. -/
theorem Matches.mono {Q₁ : α → β → Prop} (h : Matches x s y t Q I) (hQ : ∀ a b, Q a b → Q₁ a b) :
    Matches x s y t Q₁ I := by
  unfold Matches at h ⊢
  generalize x s = result, y t = result' at h
  cases h with
  | ok hvalue hstate => exact .ok (hQ _ _ hvalue) hstate
  | error hstate => exact .error hstate

theorem matches_bind_get {f : σ → EStateM ε σ α} {g : σ → EStateM ε σ β}
    (h : Matches (f s) s (g t) t Q I) : Matches (get >>= f) s (get >>= g) t Q I :=
  h

/-- Acts in two parts match if their first parts do, and their second parts for all values and
states that match. -/
theorem Matches.bind {f : α → EStateM ε σ γ} {g : β → EStateM ε σ δ} (h : Matches x s y t Q I)
    (hf : ∀ a b s' t', Q a b → I s' t' → Matches (f a) s' (g b) t' Q' I) :
    Matches (x >>= f) s (y >>= g) t Q' I := by
  unfold Matches at h ⊢
  generalize hx : x s = result, hy : y t = result' at h
  -- Where the first acts fail together nothing more is run.
  cases h with
  | ok hvalue hstate =>
    rw [bind_of_ok _ hx, bind_of_ok _ hy]
    exact hf _ _ _ _ hvalue hstate
  | error hstate =>
    rw [bind_of_error _ hx, bind_of_error _ hy]
    exact .error hstate

/-- Mapped acts match if the acts do. -/
theorem Matches.map {f : α → γ} {g : β → δ}
    (h : Matches x s y t (fun a b => Q' (f a) (g b)) I) :
    Matches (f <$> x) s (g <$> y) t Q' I := by
  have hf : f <$> x = x >>= fun a => pure (f a) := by rw [bind_pure_comp]
  have hg : g <$> y = y >>= fun b => pure (g b) := by rw [bind_pure_comp]
  rw [hf, hg]
  exact h.bind fun _ _ _ _ hvalue hstate => matches_pure hvalue hstate

/-- Errors that are handled alike leave results that match. -/
theorem Matches.tryCatch {handle : ε → EStateM ε σ α} {handle' : ε → EStateM ε σ β}
    (h : Matches x s y t Q I)
    (hhandle : ∀ e s' t', I s' t' → Matches (handle e) s' (handle' e) t' Q I) :
    Matches (tryCatch x handle) s (tryCatch y handle') t Q I := by
  unfold Matches at h ⊢
  generalize hx : x s = result, hy : y t = result' at h
  -- The handlers run together or not at all.
  cases h with
  | ok hvalue hstate =>
    rw [tryCatch_of_ok _ hx, tryCatch_of_ok _ hy]
    exact .ok hvalue hstate
  | error hstate =>
    rw [tryCatch_of_error _ hx, tryCatch_of_error _ hy]
    exact hhandle _ _ _ hstate

/-- Folds over lists whose elements are related one by one keep what their steps keep. -/
theorem matches_foldlM {step : α → γ → EStateM ε σ α} {step' : β → δ → EStateM ε σ β}
    {R : γ → δ → Prop} {l : List γ} {m : List δ} {b : β} (hlists : List.Forall₂ R l m)
    (hstep : ∀ c d, R c d → ∀ a b s t, Q a b → I s t → Matches (step a c) s (step' b d) t Q I)
    (hvalue : Q a b) (hstate : I s t) : Matches (l.foldlM step a) s (m.foldlM step' b) t Q I := by
  induction hlists generalizing a b s t with
  | nil => exact matches_pure hvalue hstate
  | cons hcd _ ih =>
    rw [List.foldlM_cons, List.foldlM_cons]
    exact (hstep _ _ hcd a b s t hvalue hstate).bind fun _ _ _ _ hvalue hstate => ih hvalue hstate

end Matches

/-! ## Two acts that change nothing and end alike -/

/-- Two acts end alike, and change nothing. -/
def AsksAlike (x : EStateM ε σ α) (s : σ) (y : EStateM ε σ α) (t : σ) : Prop :=
  Matches x s y t Eq fun s' t' => s' = s ∧ t' = t

section AsksAlike

variable {t : σ} {y : EStateM ε σ α}

/-- Two acts end alike if they give the same or fail with the same, with their states as they were.
-/
theorem asksAlike_iff : AsksAlike x s y t ↔
    (∃ a, x s = .ok a s ∧ y t = .ok a t) ∨ ∃ e, x s = .error e s ∧ y t = .error e t := by
  unfold AsksAlike Matches
  constructor
  · -- The two ways to end alike are the two constructors.
    generalize x s = result, y t = result'
    rintro (⟨rfl, rfl, rfl⟩ | ⟨rfl, rfl⟩)
    · exact .inl ⟨_, rfl, rfl⟩
    · exact .inr ⟨_, rfl, rfl⟩
  · rintro (⟨a, hx, hy⟩ | ⟨e, hx, hy⟩)
    · rw [hx, hy]
      exact .ok rfl ⟨rfl, rfl⟩
    · rw [hx, hy]
      exact .error ⟨rfl, rfl⟩

theorem asksAlike_pure (a : α) :
    AsksAlike (pure a : EStateM ε σ α) s (pure a : EStateM ε σ α) t :=
  matches_pure rfl ⟨rfl, rfl⟩

theorem asksAlike_throw (e : ε) :
    AsksAlike (throw e : EStateM ε σ α) s (throw e : EStateM ε σ α) t :=
  matches_throw e ⟨rfl, rfl⟩

theorem asksAlike_bind_get {f g : σ → EStateM ε σ β} (h : AsksAlike (f s) s (g t) t) :
    AsksAlike (get >>= f) s (get >>= g) t :=
  matches_bind_get h

/-- Acts in two parts end alike if their first parts do, and their second parts for each value. -/
theorem AsksAlike.bind {f g : α → EStateM ε σ β} (h : AsksAlike x s y t)
    (hf : ∀ a, AsksAlike (f a) s (g a) t) : AsksAlike (x >>= f) s (y >>= g) t := by
  refine Matches.bind h ?_
  rintro a _ _ _ rfl ⟨rfl, rfl⟩
  exact hf a

theorem AsksAlike.map (f : α → β) (h : AsksAlike x s y t) :
    AsksAlike (f <$> x) s (f <$> y) t :=
  Matches.map (Matches.mono h fun _ _ => congrArg f)

/-- The same acts for each element of a list end alike if each of them does. -/
theorem asksAlike_mapM {γ : Type} {act : γ → EStateM ε σ β} {l : List γ}
    (hact : ∀ c ∈ l, AsksAlike (act c) s (act c) t) :
    AsksAlike (l.mapM act) s (l.mapM act) t := by
  induction l with
  | nil => exact asksAlike_pure []
  | cons c l ih =>
    simp only [List.mem_cons, forall_eq_or_imp] at hact
    rw [List.mapM_cons]
    exact hact.1.bind fun b => (ih hact.2).bind fun bs => asksAlike_pure (b :: bs)

end AsksAlike

end EStateM

namespace ImportAtlas.Act

theorem ofExcept_ok {ε α : Type} (wrap : ε → Error) (a : α) (host : Host) :
    ofExcept wrap (.ok a) host = .ok a host :=
  rfl

/-- A pure result is the same in any state. -/
theorem isStateless_ofExcept {ε α : Type} (wrap : ε → Error) (result : Except ε α) :
    EStateM.IsStateless (ofExcept wrap result) := by
  cases result with
  | ok a => exact EStateM.isStateless_pure a
  | error e => exact EStateM.isStateless_throw _

/-- So is the spelling of a value. -/
theorem isStateless_spell (v : Value) : EStateM.IsStateless (spell v) := by
  unfold spell
  split
  · exact EStateM.isStateless_throw _
  · split
    · exact EStateM.isStateless_throw _
    · exact EStateM.isStateless_pure _

/-- To spell a value changes nothing. -/
theorem asks_spell (host : Host) (v : Value) :
    EStateM.Asks (spell v) host (fun _ => True) fun _ => True := by
  unfold spell
  split
  · exact EStateM.asks_throw trivial
  · split
    · exact EStateM.asks_throw trivial
    · exact EStateM.asks_pure trivial

/-- How a value is spelled is the same in any state. -/
theorem asks_spell_forall (host : Host) (v : Value) :
    EStateM.Asks (spell v) host (fun text => ∀ s, spell v s = .ok text s)
      fun e => ∀ s, spell v s = .error e s := by
  unfold spell
  split
  · exact EStateM.asks_throw fun _ => rfl
  · split
    · exact EStateM.asks_throw fun _ => rfl
    · exact EStateM.asks_pure fun _ => rfl

theorem workingPath_eq (host : Host) : workingPath host = .ok (.ofPlace host.folder) host :=
  rfl

end ImportAtlas.Act
