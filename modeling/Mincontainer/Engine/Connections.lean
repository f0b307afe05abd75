import Mincontainer.Engine.CheckpointErrors
import Mincontainer.Engine.Liveness
import Mincontainer.Engine.Sockets

set_option relaxedAutoImplicit false
set_option autoImplicit false

/-!
# Established connections

Before a checkpoint the tables of the TCP sockets in the network namespace of the container are read,
and an established connection stops it, unless it is to be serialised. The tables are texts of the
kernel: a header, and a line of columns for each socket, the fourth of which is its state.

A table that cannot be read is skipped, as on a host without IPv6; so the sockets of the other one are
all that is looked at.

## Main definitions

* `Mincontainer.establishedConnections` — the connections that are found in the tables.
* `Mincontainer.SocketTable` — the sockets of a namespace, and the table that the kernel prints of
  them.
* `Mincontainer.Connected` — a socket is established in a table that can be read.
* `Mincontainer.Checkpoint.Looks` — a look at the connections tells what the tables hold.

## Main results

* `Mincontainer.readTable_bytes` — exactly the established sockets are found, in their order.
* `Mincontainer.Checkpoint.connected_untouched` — a container with a connection is not touched.
-/

namespace Mincontainer

open Effects Files Bytes

/-! ### Reading a table -/

/-- The words of a text, between its white space. -/
def words (text : List Char) : List (List Char) := (text.splitOnP isWhite).filter (· ≠ [])

/-- A line without the carriage return at its end. -/
def dropReturn (line : List Char) : List Char :=
  if line.getLast? = some '\r' then line.dropLast else line

/-- The lines of a text; the last one need not be ended. -/
def lines (text : List Char) : List (List Char) :=
  (text.splitOn '\n').dropLast.map dropReturn ++ (text.splitOn '\n').getLast?.toList.filter (· ≠ [])

/-- The connection in a line of a table, if it is established: its two addresses are the second and the
third column, its state is the fourth. -/
def connection? (v6 : Bool) (line : List Char) : Option Connection :=
  match words line with
  | _ :: local_ :: remote :: state :: _ =>
    if state ≠ ['0', '1'] then none
    else some ⟨formatAddr (String.ofList local_) v6, formatAddr (String.ofList remote) v6⟩
  | _ => none

/-- The connections in a table, if it can be read. -/
def readTable (table : Option Bytes) (v6 : Bool) : List Connection :=
  match table.bind fun b => String.fromUTF8? ⟨b.toArray⟩ with
  | none => []
  | some text => ((lines text.toList).drop 1).filterMap (connection? v6)

/-- Established TCP connections in the container's network namespace, given the bytes of
`/proc/<pid>/net/tcp` and `/proc/<pid>/net/tcp6`. -/
def establishedConnections (tcp tcp6 : Option Bytes) : List Connection :=
  readTable tcp false ++ readTable tcp6 true

/-! ### Printing a table -/

/-- A socket in a table: its number there, its two ends, its state, and the other columns. -/
structure Socket (n : ℕ) where
  slot : ℕ
  local_ : SocketAddress n
  remote : SocketAddress n
  state : UInt8
  columns : List Char
  columns_line : '\n' ∉ columns

/-- The sockets of a namespace, and the header of their table. -/
structure SocketTable (n : ℕ) where
  header : List Char
  sockets : List (Socket n)
  header_line : '\n' ∉ header

namespace Socket

variable {n : ℕ}

/-- The socket is established. -/
def Established (s : Socket n) : Prop := s.state = 1

instance (s : Socket n) : Decidable s.Established := inferInstanceAs (Decidable (_ = _))

/-- The first four columns: the number in four places, the ends, and the state in two digits. -/
def front (s : Socket n) : List Char :=
  (Nat.toDigits 10 s.slot).leftpad 4 ' ' ++ ':' :: ' ' :: (s.local_.procfs.toList ++
    ' ' :: (s.remote.procfs.toList ++ ' ' :: upperHex 2 s.state.toNat))

/-- The line of the socket. -/
def line (s : Socket n) : List Char := s.front ++ ' ' :: s.columns

/-- The connection that the socket is. -/
def connection (v6 : Bool) (s : Socket n) : Connection :=
  ⟨formatAddr s.local_.procfs v6, formatAddr s.remote.procfs v6⟩

end Socket

/-- The text of the table. -/
def SocketTable.text {n : ℕ} (t : SocketTable n) : List Char :=
  t.header ++ '\n' :: t.sockets.flatMap fun s => s.line ++ ['\n']

/-- The bytes of the table. -/
def SocketTable.bytes {n : ℕ} (t : SocketTable n) : Bytes := utf8 (String.ofList t.text)

/-! ### Words and lines -/

@[simp] lemma words_nil : words [] = [] := by
  simp [words]

/-- Words end at white space. -/
lemma words_append {c : Char} (hc : isWhite c = true) (a b : List Char) :
    words (a ++ c :: b) = words a ++ words b := by
  unfold words
  rw [List.splitOnP_append_cons a b hc, List.filter_append]

/-- A text without white space is a word. -/
lemma words_of_plain {w : List Char} (hne : w ≠ []) (h : ∀ c ∈ w, isWhite c = false) :
    words w = [w] := by
  unfold words
  rw [List.splitOnP_eq_singleton h]
  simp [hne]

/-- Blanks on the left belong to no word. -/
lemma words_blanks (m : ℕ) (w : List Char) : words (List.replicate m ' ' ++ w) = words w := by
  induction m with
  | zero => rfl
  | succ m ih =>
    have hfirst := words_append (c := ' ') (by decide) [] (List.replicate m ' ' ++ w)
    rw [words_nil, List.nil_append, List.nil_append] at hfirst
    rw [List.replicate_succ, List.cons_append, hfirst, ih]

@[simp] lemma lines_nil : lines [] = [] := by
  simp [lines]

/-- The first line ends at the first newline. -/
lemma lines_append {l : List Char} (hl : '\n' ∉ l) (rest : List Char) :
    lines (l ++ '\n' :: rest) = dropReturn l :: lines rest := by
  have hsplit : (l ++ '\n' :: rest).splitOn '\n' = l :: rest.splitOn '\n' := by
    rw [List.splitOn_append_cons_self, List.splitOn_eq_singleton hl, List.singleton_append]
  have hne := List.splitOn_ne_nil '\n' rest
  unfold lines
  rw [hsplit, List.dropLast_cons_of_ne_nil hne, List.getLast?_cons_of_ne_nil hne, List.map_cons,
    List.cons_append]

/-- At most the last character is dropped. -/
lemma dropReturn_append (a : List Char) {c : Char} (hc : c ≠ '\r') (b : List Char) :
    ∃ b', dropReturn (a ++ c :: b) = a ++ c :: b' := by
  unfold dropReturn
  split
  · rename_i hlast
    cases b with
    | nil =>
      rw [List.getLast?_concat] at hlast
      exact absurd (Option.some.inj hlast) hc
    | cons d b =>
      refine ⟨(d :: b).dropLast, ?_⟩
      rw [List.dropLast_append_of_ne_nil (by simp), List.dropLast_cons_of_ne_nil (by simp)]
  · exact ⟨b, rfl⟩

/-! ### What is printed -/

/-- Neither digits nor colons are white space. -/
lemma plain_of_range {c : Char} (h : 48 ≤ c.toNat ∧ c.toNat ≤ 122) : isWhite c = false := by
  unfold isWhite
  simp only [Bool.or_eq_false_iff, Bool.and_eq_false_iff, decide_eq_false_iff_not, beq_eq_false_iff_ne]
  omega

lemma plain_of_mem_upperHex {k m : ℕ} {c : Char} (h : c ∈ upperHex k m) : isWhite c = false := by
  obtain ⟨d, hd⟩ := hexValue_of_mem_upperHex h
  apply plain_of_range
  have hle : ∀ {a b : Char}, a ≤ b → a.toNat ≤ b.toNat := fun h => UInt32.le_iff_toNat_le.mp h
  unfold hexValue at hd
  split at hd
  · rename_i hc
    exact ⟨hle hc.1, (hle hc.2).trans (by decide)⟩
  split at hd
  · rename_i hc
    exact ⟨(by decide : 48 ≤ 'a'.toNat).trans (hle hc.1), (hle hc.2).trans (by decide)⟩
  split at hd
  · rename_i hc
    exact ⟨(by decide : 48 ≤ 'A'.toNat).trans (hle hc.1), (hle hc.2).trans (by decide)⟩
  · cases hd

namespace SocketAddress

variable {n : ℕ}

/-- An address is one word. -/
lemma plain_procfs {a : SocketAddress n} {c : Char} (h : c ∈ a.procfs.toList) : isWhite c = false := by
  unfold procfs at h
  rw [String.toList_ofList] at h
  rcases List.mem_append.mp h with h | h
  · obtain ⟨word, -, hword⟩ := List.mem_flatMap.mp h
    exact plain_of_mem_upperHex hword
  · rcases List.mem_cons.mp h with rfl | h
    · decide
    · exact plain_of_mem_upperHex h

lemma procfs_ne_nil (a : SocketAddress n) : a.procfs.toList ≠ [] := by
  unfold procfs
  rw [String.toList_ofList]
  simp

end SocketAddress

namespace Socket

variable {n : ℕ}

/-- The number of a socket, with its colon, is one word. -/
lemma plain_slot (m : ℕ) {c : Char} (h : c ∈ Nat.toDigits 10 m ++ [':']) : isWhite c = false := by
  rcases List.mem_append.mp h with h | h
  · have hdigit := Char.isDigit_iff_toNat.mp (Nat.isDigit_of_mem_toDigits (by omega) (by omega) h)
    exact plain_of_range ⟨hdigit.1, hdigit.2.trans (by decide)⟩
  · rw [List.mem_singleton.mp h]
    decide

/-- The first four words of a line are the first four columns. -/
lemma words_front (s : Socket n) (b : List Char) :
    words (s.front ++ ' ' :: b) = (Nat.toDigits 10 s.slot ++ [':']) :: s.local_.procfs.toList ::
      s.remote.procfs.toList :: upperHex 2 s.state.toNat :: words b := by
  have hblank : isWhite ' ' = true := by decide
  have hfront : s.front = (List.replicate (4 - (Nat.toDigits 10 s.slot).length) ' ' ++
      (Nat.toDigits 10 s.slot ++ [':'])) ++ ' ' :: (s.local_.procfs.toList ++
        ' ' :: (s.remote.procfs.toList ++ ' ' :: upperHex 2 s.state.toNat)) := by
    simp [front, List.leftpad]
  have hslot : words (Nat.toDigits 10 s.slot ++ [':']) = [Nat.toDigits 10 s.slot ++ [':']] :=
    words_of_plain (by simp) fun _ => plain_slot s.slot
  have hlocal : words s.local_.procfs.toList = [s.local_.procfs.toList] :=
    words_of_plain s.local_.procfs_ne_nil fun _ => SocketAddress.plain_procfs
  have hremote : words s.remote.procfs.toList = [s.remote.procfs.toList] :=
    words_of_plain s.remote.procfs_ne_nil fun _ => SocketAddress.plain_procfs
  have hstate : words (upperHex 2 s.state.toNat) = [upperHex 2 s.state.toNat] := by
    refine words_of_plain (fun hnil => ?_) fun _ => plain_of_mem_upperHex
    have := length_upperHex 2 s.state.toNat
    rw [hnil] at this
    cases this
  rw [words_append hblank, hfront, words_append hblank, words_append hblank, words_append hblank,
    words_blanks, hslot, hlocal, hremote, hstate]
  rfl

/-- A line has no newline in it. -/
lemma newline_not_mem_line (s : Socket n) : '\n' ∉ s.line := by
  have hplain : ∀ {l : List Char}, (∀ c ∈ l, isWhite c = false) → '\n' ∉ l := fun h hmem =>
    absurd (h _ hmem) (by decide)
  have hslot := hplain fun c => plain_slot (c := c) s.slot
  have hlocal := hplain fun c => SocketAddress.plain_procfs (a := s.local_) (c := c)
  have hremote := hplain fun c => SocketAddress.plain_procfs (a := s.remote) (c := c)
  have hstate := hplain fun c => plain_of_mem_upperHex (k := 2) (m := s.state.toNat) (c := c)
  have hdigits : '\n' ∉ Nat.toDigits 10 s.slot := fun h => hslot (List.mem_append_left _ h)
  simp [line, front, List.leftpad, hdigits, hlocal, hremote, hstate, s.columns_line]

/-- The state is printed as `01` when it is established, and only then. -/
lemma state_iff (s : Socket n) : upperHex 2 s.state.toNat = ['0', '1'] ↔ s.Established := by
  unfold Established
  constructor
  · intro h
    have hlt : s.state.toNat < 256 := s.state.toNat_lt
    have hread : fromHex 8 (upperHex 2 s.state.toNat) = some s.state.toNat :=
      fromHex_upperHex (by omega) (by omega) (by omega)
    have hone : fromHex 8 ['0', '1'] = some 1 := by decide
    rw [h, hone] at hread
    exact UInt8.toNat_inj.mp (Option.some.inj hread).symm
  · intro h
    rw [h]
    decide

/-- The connection in the line of a socket. -/
lemma connection?_line (s : Socket n) (v6 : Bool) :
    connection? v6 (dropReturn s.line) = if s.Established then some (s.connection v6) else none := by
  obtain ⟨b, hb⟩ := dropReturn_append s.front (by decide : ' ' ≠ '\r') s.columns
  unfold connection? line
  rw [hb, words_front]
  dsimp only
  by_cases h : s.Established
  · rw [if_neg (not_not_intro (s.state_iff.mpr h)), if_pos h, String.ofList_toList, String.ofList_toList]
    rfl
  · rw [if_pos (fun heq => h (s.state_iff.mp heq)), if_neg h]

end Socket

/-! ### What is found -/

section

variable {n : ℕ}

/-- The lines of the sockets. -/
lemma lines_flatMap (ss : List (Socket n)) :
    lines (ss.flatMap fun s => s.line ++ ['\n']) = ss.map fun s => dropReturn s.line := by
  induction ss with
  | nil => exact lines_nil
  | cons s ss ih =>
    rw [List.flatMap_cons, List.append_assoc, List.singleton_append,
      lines_append s.newline_not_mem_line, ih]
    rfl

/-- **What is found in a table** are the established sockets, in their order.

**Proof sketch.** The text is cut into the lines that it was put together from, the header is skipped, and
the first four words of each line are the columns that count, whatever stands in the others. -/
lemma readTable_bytes (t : SocketTable n) (v6 : Bool) :
    readTable (some t.bytes) v6 =
      (t.sockets.filter fun s => s.Established).map (Socket.connection v6) := by
  have hall : ∀ ss : List (Socket n), (ss.map fun s => dropReturn s.line).filterMap (connection? v6) =
      (ss.filter fun s => s.Established).map (Socket.connection v6) := by
    intro ss
    induction ss with
    | nil => rfl
    | cons s ss ih =>
      rw [List.map_cons, List.filterMap_cons, s.connection?_line]
      by_cases h : s.Established
      · simp [h, ih]
      · simp [h, ih]
  unfold readTable SocketTable.bytes
  rw [Option.bind_some, fromUTF8?_utf8]
  dsimp only
  rw [String.toList_ofList, SocketTable.text, lines_append t.header_line, lines_flatMap, List.drop_one,
    List.tail_cons]
  exact hall t.sockets

end

/-- A socket is established in one of the tables that can be read. -/
def Connected (t4 : Option (SocketTable 4)) (t6 : Option (SocketTable 16)) : Prop :=
  (∃ t ∈ t4, ∃ s ∈ t.sockets, s.Established) ∨ ∃ t ∈ t6, ∃ s ∈ t.sockets, s.Established

/-- Nothing is found exactly when no socket is established. -/
lemma establishedConnections_eq_nil_iff (t4 : Option (SocketTable 4)) (t6 : Option (SocketTable 16)) :
    establishedConnections (t4.map SocketTable.bytes) (t6.map SocketTable.bytes) = [] ↔
      ¬ Connected t4 t6 := by
  have hone : ∀ {n : ℕ} (t : Option (SocketTable n)) (v6 : Bool),
      readTable (t.map SocketTable.bytes) v6 = [] ↔
        ¬ ∃ t' ∈ t, ∃ s ∈ t'.sockets, s.Established := by
    intro n t v6
    cases t with
    | none => simp [readTable]
    | some t =>
      rw [Option.map_some, readTable_bytes, List.map_eq_nil_iff, List.filter_eq_nil_iff]
      simp
  unfold establishedConnections Connected
  rw [List.append_eq_nil_iff, hone, hone, not_or]

namespace Checkpoint

variable {R : Host → Host → Prop} {env : Env} {codec : Codec Manifest} {id : String} {opts : Options}
  {h h' : Host} {tr : List HostSig.Event} {t4 : Option (SocketTable 4)} {t6 : Option (SocketTable 16)}

/-- A look at the connections tells what these tables hold. -/
def Looks (t4 : Option (SocketTable 4)) (t6 : Option (SocketTable 16)) (e : HostSig.Event) : Prop :=
  ∀ (pid : Int) (found : List Connection), e = ⟨.connections pid, found⟩ →
    found = establishedConnections (t4.map SocketTable.bytes) (t6.map SocketTable.bytes)

/-- The preflight passes no container with a connection. -/
lemma preflight_refuses {pid : Int} {cfg : ContainerConfig} {u : Unit} (hopts : opts.allowTcp = false)
    (hconnected : Connected t4 t6) (hlooks : ∀ e ∈ tr, Looks t4 t6 e) :
    ¬ Runs R (preflight env pid cfg opts) h tr (some (.ok u)) h' := by
  intro hrun
  obtain ⟨g, conns, tr₁, -, -, rfl, hrun₁⟩ := Exec.call_some_inv hrun
  have hfound : conns = establishedConnections (t4.map SocketTable.bytes) (t6.map SocketTable.bytes) :=
    hlooks _ List.mem_cons_self pid conns rfl
  have hne : conns ≠ [] := fun hnil =>
    (establishedConnections_eq_nil_iff t4 t6).mp (hfound ▸ hnil) hconnected
  change Runs R (if conns ≠ [] ∧ !opts.allowTcp then _ else _) _ _ _ _ at hrun₁
  rw [if_pos ⟨hne, by rw [hopts]; rfl⟩] at hrun₁
  exact Exec.throw_ok_false hrun₁

/-- **A connection is not dropped.** When a socket of the container is established as the kernel prints its
tables, a checkpoint that is not to serialise connections only reads, wherever it stops, and does not
return. -/
theorem connected_untouched {out : Option (Except RuntimeError Report)} (hopts : opts.allowTcp = false)
    (hconnected : Connected t4 t6) (hlooks : ∀ e ∈ tr, Looks t4 t6 e)
    (hrun : Runs R (checkpoint env codec id opts) h tr out h') :
    (∀ e ∈ tr, e.1.reads = true) ∧ ∀ rep, out ≠ some (.ok rep) := by
  rcases Exec.fallible_bind_inv hrun with ⟨rfl, hprepare⟩ | ⟨e, rfl, hprepare⟩ |
    ⟨info, tr₁, tr₂, g, rfl, hprepare, -⟩
  · exact ⟨Exec.mem_within prepare_reads hprepare, by simp⟩
  · exact ⟨Exec.mem_within prepare_reads hprepare, by simp⟩
  exfalso
  obtain ⟨v, tr₃, tr₄, g₁, rfl, -, hprepare₁⟩ := Exec.fallible_bind_ok hprepare
  obtain ⟨x, tr₅, tr₆, g₂, rfl, -, hprepare₂⟩ := Exec.fallible_bind_ok hprepare₁
  obtain ⟨u, tr₇, tr₈, g₃, rfl, hpreflight, -⟩ := Exec.fallible_bind_ok hprepare₂
  refine preflight_refuses hopts hconnected (fun e he => hlooks e ?_) hpreflight
  simp [he]

/-! ### A server with a client -/

/-- A socket of the container at port 8080, established with a client. -/
def served : Socket 4 where
  slot := 0
  local_ := ⟨[10, 66, 0, 2], 8080, rfl⟩
  remote := ⟨[10, 66, 0, 9], 41022, rfl⟩
  state := 1
  columns := "00000000:00000000 00:00000000 00000000     0".toList
  columns_line := by decide

/-- The table with this one socket. -/
def serving : SocketTable 4 where
  header := "  sl  local_address rem_address   st tx_queue rx_queue tr".toList
  sockets := [served]
  header_line := by decide

/-- What is found in it. -/
def client : Connection := ⟨"10.66.0.2:8080", "10.66.0.9:41022"⟩

/-- The connection is reported. -/
def reported : ℕ → Host → (o : HostOp) → Option o.Reply
  | _, _, .connections _ => some [client]
  | _, _, _ => none

/-- The event is no look at the connections, or the client is seen. -/
def seesClient : HostSig.Event → Bool
  | ⟨.connections _, r⟩ => (r : List Connection) = [client]
  | _ => true

/-- The server is not stopped. -/
theorem connected_untouched_demo :
    ∃ tr e h', Runs quiet (checkpoint Demo.env Demo.codec "web" ⟨"latest", none, false, false⟩)
        Demo.live tr (some (.error e)) h' ∧
      HostOp.connections 42 ∈ tr.map Sigma.fst ∧ ∀ e ∈ tr, e.1.reads = true := by
  have hdrive : ((machine.drive (departing reported) 40 0
      (checkpoint Demo.env Demo.codec "web" ⟨"latest", none, false, false⟩).run Demo.live).map
        fun x => (x.2.1.map Except.isOk, x.1.all seesClient,
          decide (HostOp.connections 42 ∈ x.1.map Sigma.fst))) = some (some false, true, true) := by
    decide +kernel
  obtain ⟨⟨tr, out, h'⟩, hdrive, hx⟩ := Option.map_eq_some_iff.mp hdrive
  simp only [Prod.mk.injEq] at hx
  obtain ⟨hout, hsees, hlook⟩ := hx
  have hexec := Machine.drive_exec hdrive
  have hfound : establishedConnections (some serving.bytes) none = [client] := by
    have hclient : served.connection false = client := by decide +kernel
    rw [← hclient, establishedConnections, readTable_bytes]
    rfl
  have hlooks : ∀ e ∈ tr, Looks (some serving) none e := by
    intro e he pid found heq
    have hclient := List.all_eq_true.mp hsees e he
    rw [heq] at hclient
    exact (of_decide_eq_true hclient).trans hfound.symm
  obtain ⟨res, rfl, hres⟩ := Option.map_eq_some_iff.mp hout
  cases res with
  | ok r => cases hres
  | error e =>
    refine ⟨tr, e, h', hexec, of_decide_eq_true hlook, ?_⟩
    have hconnected : Connected (some serving) none :=
      .inl ⟨serving, rfl, served, List.mem_singleton_self _, rfl⟩
    exact (connected_untouched rfl hconnected hlooks hexec).1

end Checkpoint

end Mincontainer
