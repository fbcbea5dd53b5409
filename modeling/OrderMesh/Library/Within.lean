namespace Program

variable {ε σ α β : Type}

def final : EStateM.Result ε σ α → σ
  | .ok _ s => s
  | .error _ s => s

def Within (R : σ → σ → Prop) (x : EStateM ε σ α) : Prop := ∀ s, R s (final (x s))

variable {R : σ → σ → Prop} {x : EStateM ε σ α}

theorem within_pure (hrefl : ∀ s, R s s) (a : α) : Within R (pure a : EStateM ε σ α) :=
  fun s => hrefl s

theorem within_throw (hrefl : ∀ s, R s s) (e : ε) : Within R (throw e : EStateM ε σ α) :=
  fun s => hrefl s

theorem Within.bind (htrans : ∀ s t u, R s t → R t u → R s u) {f : α → EStateM ε σ β}
    (h : Within R x) (hrest : ∀ a, Within R (f a)) : Within R (x >>= f) := by
  intro s
  have hfirst := h s
  simp only [Bind.bind, EStateM.bind]
  cases hx : x s with
  | error e t =>
    rw [hx] at hfirst
    exact hfirst
  | ok a t =>
    rw [hx] at hfirst
    exact htrans s t _ hfirst (hrest a t)

theorem Within.map (h : Within R x) (f : α → β) : Within R (f <$> x) := by
  intro s
  have hfirst := h s
  simp only [Functor.map, EStateM.map]
  cases hx : x s with
  | error e t =>
    rw [hx] at hfirst
    exact hfirst
  | ok a t =>
    rw [hx] at hfirst
    exact hfirst

theorem within_forM (hrefl : ∀ s, R s s) (htrans : ∀ s t u, R s t → R t u → R s u)
    {f : β → EStateM ε σ PUnit} (h : ∀ b, Within R (f b)) (bs : List β) :
    Within R (bs.forM f) := by
  induction bs with
  | nil => exact within_pure hrefl _
  | cons b bs ih => exact (h b).bind htrans fun _ => ih

end Program
