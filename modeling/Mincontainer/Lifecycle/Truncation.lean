import Mincontainer.Lifecycle.Wiring

set_option relaxedAutoImplicit false
set_option autoImplicit false

/-!
# Cutting an id to a number of bytes

An id is cut at 12 bytes for the names of interfaces, which are cut at 15 bytes themselves, and at 38
bytes for the listing. The first cut falls back to the whole id when it would split a character; the
others end the process.

## Main definitions

* `Mincontainer.Boundary` — the first bytes of a string are whole characters.
* `Mincontainer.idColumn` — the id as the listing shows it.
* `Mincontainer.TruncatesSafely` — nothing that cuts the id ends the process.

## Main results

* `Mincontainer.slice_isSome_iff` — when a string can be cut at a number of bytes.
* `Mincontainer.truncatesSafely_iff` — which ids are cut safely.
-/

namespace Mincontainer

open Effects

/-! ### Cuts -/

/-- The number of bytes of some characters. -/
def byteLen (cs : List Char) : ℕ := (cs.map Char.utf8Size).sum

@[simp] lemma byteLen_nil : byteLen [] = 0 := rfl

@[simp] lemma byteLen_cons (c : Char) (cs : List Char) :
    byteLen (c :: cs) = c.utf8Size + byteLen cs := by
  simp [byteLen]

lemma utf8ByteSize_ofList (cs : List Char) : (String.ofList cs).utf8ByteSize = byteLen cs := by
  induction cs with
  | nil => rfl
  | cons c cs ih =>
    have hsplit : String.ofList (c :: cs) = String.singleton c ++ String.ofList cs := by
      rw [String.singleton_eq_ofList, ← String.ofList_append]
      rfl
    rw [hsplit, String.utf8ByteSize_append, String.utf8ByteSize_singleton, ih, byteLen_cons]

lemma utf8ByteSize_eq (s : String) : s.utf8ByteSize = byteLen s.toList := by
  rw [← utf8ByteSize_ofList, String.ofList_toList]

/-- What is cut off in front begins the characters; it is all of them, or has the number of bytes that
was asked for. -/
lemma takeBytes_some {n : ℕ} {cs ds : List Char} (h : takeBytes n cs = some ds) :
    ∃ es, cs = ds ++ es ∧ (byteLen ds = n ∨ byteLen ds ≤ n ∧ es = []) := by
  fun_induction takeBytes n cs generalizing ds with
  | case1 cs =>
    obtain rfl := Option.some.inj h
    exact ⟨cs, rfl, .inl rfl⟩
  | case2 n hn =>
    obtain rfl := Option.some.inj h
    exact ⟨[], rfl, .inr ⟨Nat.zero_le n, rfl⟩⟩
  | case3 n c cs hn hle ih =>
    obtain ⟨ds', hds', rfl⟩ := Option.map_eq_some_iff.mp h
    obtain ⟨es, rfl, hlen⟩ := ih hds'
    refine ⟨es, rfl, ?_⟩
    rw [byteLen_cons]
    rcases hlen with hlen | ⟨hlen, hes⟩
    · exact .inl (by omega)
    · exact .inr ⟨by omega, hes⟩
  | case4 n c cs hn hle => cases h

/-- Characters that fit are all taken. -/
lemma takeBytes_of_le {n : ℕ} {cs : List Char} (h : byteLen cs ≤ n) : takeBytes n cs = some cs := by
  induction cs generalizing n with
  | nil => cases n <;> rfl
  | cons c cs ih =>
    rw [byteLen_cons] at h
    have hpos := c.utf8Size_pos
    obtain ⟨n, rfl⟩ : ∃ m, n = m + 1 := ⟨n - 1, by omega⟩
    rw [takeBytes, if_pos (by omega), ih (by omega)]
    · rfl
    · exact Nat.succ_ne_zero n

/-- Whole characters are cut off where they end. -/
lemma takeBytes_byteLen (cs ds : List Char) : takeBytes (byteLen cs) (cs ++ ds) = some cs := by
  induction cs with
  | nil => simp [takeBytes]
  | cons c cs ih =>
    have hpos := c.utf8Size_pos
    obtain ⟨n, hn⟩ : ∃ m, byteLen (c :: cs) = m + 1 := by
      refine ⟨byteLen (c :: cs) - 1, ?_⟩
      rw [byteLen_cons]
      omega
    have hrest : n + 1 - c.utf8Size = byteLen cs := by
      rw [byteLen_cons] at hn
      omega
    rw [hn, List.cons_append, takeBytes, hrest, ih, if_pos]
    · rfl
    · rw [byteLen_cons] at hn
      omega
    · exact Nat.succ_ne_zero n

/-- The first `n` bytes of the string are whole characters, or it has no more bytes than that. -/
def Boundary (n : ℕ) (s : String) : Prop :=
  s.utf8ByteSize ≤ n ∨ ∃ a b : String, s = a ++ b ∧ a.utf8ByteSize = n

/-- **Where a string can be cut.** Exactly at the end of a character, or behind its end. -/
lemma slice_isSome_iff {n : ℕ} {s : String} : (slice n s).isSome ↔ Boundary n s := by
  rw [slice, Option.isSome_map]
  constructor
  · intro h
    obtain ⟨ds, hds⟩ := Option.isSome_iff_exists.mp h
    obtain ⟨es, hsplit, hlen⟩ := takeBytes_some hds
    rcases hlen with hlen | ⟨hlen, rfl⟩
    · refine .inr ⟨String.ofList ds, String.ofList es, ?_, by rw [utf8ByteSize_ofList, hlen]⟩
      rw [← String.ofList_append, ← hsplit, String.ofList_toList]
    · refine .inl ?_
      rwa [utf8ByteSize_eq, hsplit, List.append_nil]
  · rintro (hle | ⟨a, b, rfl, rfl⟩)
    · rw [utf8ByteSize_eq] at hle
      rw [takeBytes_of_le hle]
      rfl
    · rw [utf8ByteSize_eq, String.toList_append, takeBytes_byteLen]
      rfl

/-- The string is a cut of the other to at most `n` bytes. -/
def IsCut (n : ℕ) (t s : String) : Prop := t.utf8ByteSize ≤ n ∧ t.toList <+: s.toList

lemma slice_isCut {n : ℕ} {s t : String} (h : slice n s = some t) : IsCut n t s := by
  obtain ⟨ds, hds, rfl⟩ := Option.map_eq_some_iff.mp h
  obtain ⟨es, hsplit, hlen⟩ := takeBytes_some hds
  refine ⟨?_, ?_⟩
  · rw [utf8ByteSize_ofList]
    omega
  · rw [String.toList_ofList, hsplit]
    exact List.prefix_append ds es

/-! ### What is cut -/

/-- The id as the listing shows it. -/
def idColumn (id : String) : Option String := slice 38 id

/-- Nothing that cuts the id ends the process: wiring and unwiring an interface, and the listing. The
names of the interface are cuts of what they are made from. -/
structure TruncatesSafely (id : String) : Prop where
  setup : ∀ cfg : ContainerConfig, cfg.id = id → ∀ pid index,
    (Network.setup cfg.shortId pid index).run.Within (· ≠ HostOp.abort)
  cleanup : ∀ cfg : ContainerConfig, cfg.id = id →
    (Network.cleanupById cfg.shortId).run.Within (· ≠ HostOp.abort)
  host : ∀ cfg : ContainerConfig, cfg.id = id → ∃ name,
    Network.hostVethName cfg.shortId = some name ∧ IsCut 15 name ("mch" ++ cfg.shortId)
  peer : ∀ cfg : ContainerConfig, cfg.id = id → ∃ name,
    slice 15 ("mcp" ++ cfg.shortId) = some name ∧ IsCut 15 name ("mcp" ++ cfg.shortId)
  column : ∃ shown, idColumn id = some shown

section

variable {cfg : ContainerConfig}

/-- The names of an interface can be made exactly when the id can be cut at 12 bytes. -/
lemma hostVethName_isSome : (Network.hostVethName cfg.shortId).isSome ↔ Boundary 12 cfg.id := by
  rw [Network.hostVethName_shortId, Network.veth, Option.isSome_map, slice_isSome_iff]

lemma peer_isSome : (slice 15 ("mcp" ++ cfg.shortId)).isSome ↔ Boundary 12 cfg.id := by
  rw [Network.peer_shortId, Network.peerName, Option.isSome_map, slice_isSome_iff]

/-- Then the set-up goes on behind them. -/
lemma setup_goes_on (h : Boundary 12 cfg.id) (pid : Int) (index : UInt8) :
    (Network.setup cfg.shortId pid index).run.Within (· ≠ HostOp.abort) := by
  obtain ⟨name, hname⟩ := Option.isSome_iff_exists.mp (hostVethName_isSome.mpr h)
  obtain ⟨peer, hpeer⟩ := Option.isSome_iff_exists.mp (peer_isSome.mpr h)
  have hrun : ∀ c : NetCommand, (Network.run c).run.Within (· ≠ HostOp.abort) := fun c =>
    Restore.within_run (by rintro ⟨⟩)
  rw [Network.setup]
  refine Fallible.within_bind (Restore.within_ensureBridge fun c _ => by rintro ⟨⟩) fun _ => ?_
  rw [hname, hpeer]
  refine Fallible.within_bind (hrun _) fun _ => Fallible.within_bind ?_ fun _ => trivial
  refine Fallible.within_bind (hrun _) fun _ => Fallible.within_bind (hrun _) fun _ => ?_
  refine Fallible.within_bind (hrun _) fun _ => Fallible.within_bind (hrun _) fun _ => ?_
  refine Fallible.within_bind (hrun _) fun _ => Fallible.within_bind (hrun _) fun _ => ?_
  exact Fallible.within_bind (hrun _) fun _ => hrun _

/-- The clean-up ends the process exactly when there is no name to delete. -/
lemma cleanup_goes_on_iff :
    (Network.cleanupById cfg.shortId).run.Within (· ≠ HostOp.abort) ↔ Boundary 12 cfg.id := by
  rw [← hostVethName_isSome, Network.cleanupById]
  cases hname : Network.hostVethName cfg.shortId with
  | none => simp [within_abort]
  | some name =>
    refine iff_of_true (Fallible.within_bind (Fallible.within_attempt ?_) fun _ => trivial) rfl
    exact Restore.within_run (by rintro ⟨⟩)

end

/-- **Which ids are cut safely.** Those whose first 12 bytes and whose first 38 bytes are whole
characters.

**Proof sketch.** The short id falls back to the whole id where 12 bytes would split a character, and
then the cut of the name at 15 bytes, behind three letters, falls on the same place. -/
theorem truncatesSafely_iff (id : String) :
    TruncatesSafely id ↔ Boundary 12 id ∧ Boundary 38 id := by
  constructor
  · intro h
    refine ⟨cleanup_goes_on_iff.mp (h.cleanup { Demo.config with id := id } rfl), ?_⟩
    exact slice_isSome_iff.mp (Option.isSome_iff_exists.mpr h.column)
  · rintro ⟨hshort, hcolumn⟩
    refine ⟨?_, ?_, ?_, ?_, Option.isSome_iff_exists.mp (slice_isSome_iff.mpr hcolumn)⟩
    all_goals rintro cfg rfl
    · exact setup_goes_on hshort
    · exact cleanup_goes_on_iff.mpr hshort
    · obtain ⟨name, hname⟩ := Option.isSome_iff_exists.mp (hostVethName_isSome.mpr hshort)
      exact ⟨name, hname, slice_isCut hname⟩
    · obtain ⟨name, hname⟩ := Option.isSome_iff_exists.mp (peer_isSome.mpr hshort)
      exact ⟨name, hname, slice_isCut hname⟩

/-- **A name that splits a character.** Eleven letters and one of two bytes: the short id is the whole
id, and its interface cannot be named. -/
theorem Demo.truncation_splits : ¬ TruncatesSafely "web-server-é" := by
  intro h
  obtain ⟨name, hname, -⟩ := h.host { Demo.config with id := "web-server-é" } rfl
  have hnone : Network.hostVethName
      ({ Demo.config with id := "web-server-é" } : ContainerConfig).shortId = none := by
    decide +kernel
  rw [hnone] at hname
  cases hname

end Mincontainer
