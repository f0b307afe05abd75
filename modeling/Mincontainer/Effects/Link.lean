import Mathlib.Data.List.Infix
import Mathlib.Tactic.Lemma

set_option relaxedAutoImplicit false
set_option autoImplicit false

/-!
# Two parties and a connection

Two parties whose events are interleaved in any order, and a connection between them that delivers
what each of them put in, in order. It may be cut at any time: then some of what is on its way is
lost from some place on, and nothing that is put in later arrives.

## Main definitions

* `Effects.Link` — a connection, with what is on its way.
* `Effects.Linked` — the two parties performed these events over the connection.
* `Effects.Link.replay` — whether they can be performed in a given order, without a cut.

## Main results

* `Effects.Linked.left_got`, `Effects.Linked.right_got` — what a party got is a first part of what the other
  one put in.
* `Effects.Linked.of_replay` — what can be replayed can happen.
-/

namespace Effects

/-- A connection: what is on its way to either party, and whether it is still up. -/
structure Link (β : Type) where
  toLeft : List β
  toRight : List β
  up : Bool

variable {E β : Type}

/-- What arrives of `bs` once it is put into the connection. -/
def Link.carries (up : Bool) (bs : List β) : List β := if up then bs else []

/-- What is left of the connection when the parties perform their events in this order, `true` for a turn
of the left one. -/
def Link.replay [DecidableEq β] (puts got : E → List β) : List Bool → List E → List E → Link β → Option (Link β)
  | [], [], [], c => some c
  | true :: turns, e :: l, r, c =>
    if got e <+: c.toLeft then
      Link.replay puts got turns l r
        ⟨c.toLeft.drop (got e).length, c.toRight ++ Link.carries c.up (puts e), c.up⟩
    else none
  | false :: turns, l, e :: r, c =>
    if got e <+: c.toRight then
      Link.replay puts got turns l r
        ⟨c.toLeft ++ Link.carries c.up (puts e), c.toRight.drop (got e).length, c.up⟩
    else none
  | _, _, _, _ => none

/-- The parties performed these events, in some order, and left the connection as it is; an event puts
some bytes into the connection and gets others from it. -/
inductive Linked (puts got : E → List β) : List E → List E → Link β → Prop
  | start : Linked puts got [] [] ⟨[], [], true⟩
  | left {l r : List E} {x y : List β} {up : Bool} {e : E} (h : Linked puts got l r ⟨got e ++ x, y, up⟩) :
      Linked puts got (l ++ [e]) r ⟨x, y ++ Link.carries up (puts e), up⟩
  | right {l r : List E} {x y : List β} {up : Bool} {e : E} (h : Linked puts got l r ⟨x, got e ++ y, up⟩) :
      Linked puts got l (r ++ [e]) ⟨x ++ Link.carries up (puts e), y, up⟩
  | cut {l r : List E} {x x' y y' : List β} {up : Bool} (h : Linked puts got l r ⟨x ++ x', y ++ y', up⟩) :
      Linked puts got l r ⟨x, y, false⟩

namespace Linked

variable {puts got : E → List β} {l r : List E} {c : Link β}

/-- What one party got and what is on its way to it are a first part of what the other one put in, and all
of it while the connection is up. -/
def Delivered (puts got : E → List β) (l r : List E) (x : List β) (up : Bool) : Prop :=
  l.flatMap got ++ x <+: r.flatMap puts ∧ (up = true → l.flatMap got ++ x = r.flatMap puts)

lemma Delivered.get {x : List β} {up : Bool} {e : E} (h : Delivered puts got l r (got e ++ x) up) :
    Delivered puts got (l ++ [e]) r x up := by
  have hcons : (l ++ [e]).flatMap got ++ x = l.flatMap got ++ (got e ++ x) := by
    rw [List.flatMap_append, List.flatMap_singleton, List.append_assoc]
  unfold Delivered
  rw [hcons]
  exact h

lemma Delivered.put {x : List β} {up : Bool} {e : E} (h : Delivered puts got l r x up) :
    Delivered puts got l (r ++ [e]) (x ++ Link.carries up (puts e)) up := by
  have hcons : (r ++ [e]).flatMap puts = r.flatMap puts ++ puts e := by
    rw [List.flatMap_append, List.flatMap_singleton]
  unfold Delivered Link.carries
  rw [hcons]
  cases up with
  | true =>
    rw [if_pos rfl, ← List.append_assoc, h.2 rfl]
    exact ⟨List.prefix_rfl, fun _ => rfl⟩
  | false =>
    rw [if_neg Bool.false_ne_true, List.append_nil]
    exact ⟨h.1.trans (List.prefix_append _ _), fun hup => absurd hup Bool.false_ne_true⟩

lemma Delivered.lose {x x' : List β} {up : Bool} (h : Delivered puts got l r (x ++ x') up) :
    Delivered puts got l r x false := by
  refine ⟨List.IsPrefix.trans ?_ h.1, fun hup => absurd hup Bool.false_ne_true⟩
  rw [← List.append_assoc]
  exact List.prefix_append _ _

/-- **A connection delivers** first parts, in both directions.

**Proof sketch.** Induction on the events. Getting takes from the front of what is on its way, putting
adds behind it while the connection is up, and a cut takes from its end. -/
lemma delivered (h : Linked puts got l r c) :
    Delivered puts got l r c.toLeft c.up ∧ Delivered puts got r l c.toRight c.up := by
  induction h with
  | start => exact ⟨⟨List.prefix_rfl, fun _ => rfl⟩, ⟨List.prefix_rfl, fun _ => rfl⟩⟩
  | left _ ih => exact ⟨ih.1.get, ih.2.put⟩
  | right _ ih => exact ⟨ih.1.put, ih.2.get⟩
  | cut _ ih => exact ⟨ih.1.lose, ih.2.lose⟩

theorem left_got (h : Linked puts got l r c) : l.flatMap got <+: r.flatMap puts :=
  (List.prefix_append _ _).trans h.delivered.1.1

theorem right_got (h : Linked puts got l r c) : r.flatMap got <+: l.flatMap puts :=
  (List.prefix_append _ _).trans h.delivered.2.1

/-- **Turns.** Where the connection stays up, a party may perform any events that together get what is next on
its way.

**Proof sketch.** Induction on the events. -/
theorem lefts {es : List E} {x y : List β} (h : Linked puts got l r ⟨es.flatMap got ++ x, y, true⟩) :
    Linked puts got (l ++ es) r ⟨x, y ++ es.flatMap puts, true⟩ := by
  induction es generalizing l y with
  | nil => simpa using h
  | cons e es ih =>
    rw [List.flatMap_cons, List.append_assoc] at h
    have hnext := ih h.left
    rw [List.append_assoc, List.append_assoc] at hnext
    exact hnext

theorem rights {es : List E} {x y : List β} (h : Linked puts got l r ⟨x, es.flatMap got ++ y, true⟩) :
    Linked puts got l (r ++ es) ⟨x ++ es.flatMap puts, y, true⟩ := by
  induction es generalizing r x with
  | nil => simpa using h
  | cons e es ih =>
    rw [List.flatMap_cons, List.append_assoc] at h
    have hnext := ih h.right
    rw [List.append_assoc, List.append_assoc] at hnext
    exact hnext

/-- **Replays.** What can be replayed after some events can happen after them.

**Proof sketch.** Induction on the turns. What a party gets is at the front of what is on its way. -/
theorem of_replay [DecidableEq β] {turns : List Bool} {l' r' : List E} {c' : Link β}
    (h : Linked puts got l r c) (hreplay : Link.replay puts got turns l' r' c = some c') :
    Linked puts got (l ++ l') (r ++ r') c' := by
  induction turns generalizing l r l' r' c with
  | nil =>
    cases l' with
    | nil =>
      cases r' with
      | nil =>
        obtain rfl := Option.some.inj hreplay
        rwa [List.append_nil, List.append_nil]
      | cons e r' => cases hreplay
    | cons e l' => cases hreplay
  | cons turn turns ih =>
    obtain ⟨x, y, up⟩ := c
    cases turn with
    | true =>
      cases l' with
      | nil => cases hreplay
      | cons e l' =>
        unfold Link.replay at hreplay
        split at hreplay
        · rename_i hfront
          obtain ⟨x', rfl⟩ := hfront
          rw [List.drop_left] at hreplay
          have hnext := ih h.left hreplay
          rwa [List.append_assoc] at hnext
        · cases hreplay
    | false =>
      cases r' with
      | nil => cases l' <;> cases hreplay
      | cons e r' =>
        unfold Link.replay at hreplay
        split at hreplay
        · rename_i hfront
          obtain ⟨y', rfl⟩ := hfront
          rw [List.drop_left] at hreplay
          have hnext := ih h.right hreplay
          rwa [List.append_assoc r] at hnext
        · cases hreplay

end Linked

end Effects
