import Mincontainer.Effects.Exec

set_option relaxedAutoImplicit false
set_option autoImplicit false

/-!
# Programs that look something up

A program whose calls change nothing, and whose replies the world determines, has one outcome in
each world when nothing interferes: it reports it.

## Main definitions

* `Effects.Reports` — undisturbed, the program returns this value and leaves the world alone.

## Main results

* `Effects.Reports.bind` — looking one thing up after another.
-/

namespace Effects

variable {S : Signature} {W : Type} {M : Machine S W} {α β ε : Type} {w : W}

/-- Undisturbed, the program can only return `a`, does so, and leaves the world as it is. -/
structure Reports (M : Machine S W) (p : Program S α) (w : W) (a : α) : Prop where
  unique : ∀ {tr : List S.Event} {out : Option α} {w' : W}, Exec M quiet p w tr out w' →
    w' = w ∧ (out = none ∨ out = some a)
  possible : ∃ tr, Exec M quiet p w tr (some a) w

namespace Reports

/-- There is only one report. -/
lemma det {p : Program S α} {a b : α} (ha : Reports M p w a) (hb : Reports M p w b) : a = b := by
  obtain ⟨tr, hrun⟩ := ha.possible
  obtain ⟨-, h | h⟩ := hb.unique hrun
  · cases h
  · exact Option.some.inj h

lemma ret (a : α) (w : W) : Reports M (.ret a) w a where
  unique hrun := by
    obtain ⟨-, hR, hout⟩ := Exec.ret_inv hrun
    exact ⟨(reflTransGen_quiet.mp hR).symm, hout⟩
  possible := ⟨[], .ret _ _⟩

/-- A call with one possible reply, which changes nothing. -/
lemma call {o : S.Op} {k : S.Reply o → Program S α} {r : S.Reply o} {a : α}
    (hr : M.Enabled w o r) (hone : ∀ r', M.Enabled w o r' → r' = r) (hstill : M.next w o r = w)
    (hk : Reports M (k r) w a) : Reports M (.call o k) w a where
  unique hrun := by
    obtain ⟨w₁, hR, ⟨-, rfl, rfl⟩ | ⟨r', tr', hr', -, hrun'⟩⟩ := Exec.call_inv hrun
    · exact ⟨(reflTransGen_quiet.mp hR).symm, .inl rfl⟩
    · obtain rfl := reflTransGen_quiet.mp hR
      obtain rfl := hone r' hr'
      rw [hstill] at hrun'
      exact hk.unique hrun'
  possible := by
    obtain ⟨tr, hrun⟩ := hk.possible
    refine ⟨⟨o, r⟩ :: tr, .call hr ?_⟩
    rwa [hstill]

/-- A lookup that goes on with what the first one found. -/
lemma bind {x : Fallible S ε α} {f : α → Fallible S ε β} {a : α} {res : Except ε β}
    (hx : Reports M x.run w (.ok a)) (hf : Reports M (f a).run w res) :
    Reports M (x >>= f).run w res where
  unique hrun := by
    rcases Exec.fallible_bind_inv hrun with ⟨rfl, h₁⟩ | ⟨e, -, h₁⟩ |
      ⟨a', tr₁, tr₂, w₁, rfl, h₁, h₂⟩
    · exact ⟨(hx.unique h₁).1, .inl rfl⟩
    · rcases (hx.unique h₁).2 with h | h <;> cases h
    · obtain ⟨rfl, h | h⟩ := hx.unique h₁
      · cases h
      · cases h
        exact hf.unique h₂
  possible := by
    obtain ⟨tr₁, h₁⟩ := hx.possible
    obtain ⟨tr₂, h₂⟩ := hf.possible
    exact ⟨tr₁ ++ tr₂, Exec.fallible_bind h₁ h₂⟩

end Reports

end Effects
