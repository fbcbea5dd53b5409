namespace Relational

variable {ε σ τ α β : Type}

inductive Ends (Q : α → σ → τ → Prop) (E : ε → σ → τ → Prop) :
    EStateM.Result ε σ α → EStateM.Result ε τ α → Prop
  | ok {a s t} (h : Q a s t) : Ends Q E (.ok a s) (.ok a t)
  | error {e s t} (h : E e s t) : Ends Q E (.error e s) (.error e t)

def Alike (P : σ → τ → Prop) (x : EStateM ε σ α) (y : EStateM ε τ α) (Q : α → σ → τ → Prop)
    (E : ε → σ → τ → Prop) : Prop := ∀ s t, P s t → Ends Q E (x s) (y t)

variable {P : σ → τ → Prop} {Q : α → σ → τ → Prop} {E : ε → σ → τ → Prop}
  {x : EStateM ε σ α} {y : EStateM ε τ α}

theorem alike_pure (a : α) (h : ∀ s t, P s t → Q a s t) :
    Alike P (pure a : EStateM ε σ α) (pure a : EStateM ε τ α) Q E :=
  fun s t hpre => .ok (h s t hpre)

theorem alike_throw (e : ε) (h : ∀ s t, P s t → E e s t) :
    Alike P (throw e : EStateM ε σ α) (throw e : EStateM ε τ α) Q E :=
  fun s t hpre => .error (h s t hpre)

theorem Alike.bind {R : β → σ → τ → Prop} {f : α → EStateM ε σ β} {g : α → EStateM ε τ β}
    (h : Alike P x y Q E) (hrest : ∀ a, Alike (Q a) (f a) (g a) R E) :
    Alike P (x >>= f) (y >>= g) R E := by
  intro s t hpre
  have hrun := h s t hpre
  simp only [Bind.bind, EStateM.bind]
  generalize x s = u, y t = v at hrun
  cases hrun with
  | ok hmid => exact hrest _ _ _ hmid
  | error herr => exact .error herr

theorem Alike.map {R : β → σ → τ → Prop} {f : α → β} (h : Alike P x y (fun a => R (f a)) E) :
    Alike P (f <$> x) (f <$> y) R E := by
  intro s t hpre
  have hrun := h s t hpre
  simp only [Functor.map, EStateM.map]
  generalize x s = u, y t = v at hrun
  cases hrun with
  | ok hpost => exact .ok hpost
  | error herr => exact .error herr

/-- The loop rule; the invariant speaks of the elements to come. -/
theorem alike_forM {I : List β → σ → τ → Prop} {f : β → EStateM ε σ PUnit}
    {g : β → EStateM ε τ PUnit}
    (hbody : ∀ b bs, Alike (I (b :: bs)) (f b) (g b) (fun _ => I bs) E) (bs : List β) :
    Alike (I bs) (bs.forM f) (bs.forM g) (fun _ => I []) E := by
  induction bs with
  | nil => exact fun _ _ hpre => .ok hpre
  | cons b bs ih => exact (hbody b bs).bind fun _ => ih

end Relational
