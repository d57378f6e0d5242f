/-
Writing to an output that fills up.

A sequence of writes goes to one sink, each write at an indentation of its own, and goes
on after a write that failed. What reaches a limited sink is compared with what the same
sequence puts into an unlimited one.

Two facts carry everything. A write to a limited sink depends on its pieces only through
their bytes (`write_limited`): the sink takes as many of them as it has room for, and the
write succeeds exactly if that is all of them. And no write is empty (`bytes_ne_nil`),
since every one ends in a line break, so that a sink that is full refuses every further
write.
-/
import Ambient.Layout.Sink
import Ambient.Proofs.Layout.Lines

set_option autoImplicit false

namespace Ambient.Layout

/-! ## Writes -/

/-- One write, at an indentation of its own. -/
inductive Write where
  | line (indent : Indent) (content : String)
  | comment (indent : Indent) (content : String)
  | node (indent : Indent) (written : Tree.Node)

/-- The pieces of a write. -/
def Write.pieces : Write → List String
  | line indent content => writeLine indent content
  | comment indent content => writeComment indent content
  | node indent written => writeNode indent written

/-- The bytes of pieces, one piece after the other. -/
def piecesBytes (pieces : List String) : List UInt8 := pieces.flatMap Sink.textBytes

/-- The bytes that a write would like to put out. -/
def Write.bytes (write : Write) : List UInt8 := piecesBytes write.pieces

/-- Performs writes in order, also after one that failed; whether each one succeeded. -/
def Sink.run : Sink → List Write → Sink × List Bool
  | sink, [] => (sink, [])
  | sink, write :: writes =>
    let (next, succeeded) := sink.write write.pieces
    let (last, verdicts) := next.run writes
    (last, succeeded :: verdicts)

/-! ## No write is empty -/

theorem piecesBytes_append (first second : List String) :
    piecesBytes (first ++ second) = piecesBytes first ++ piecesBytes second :=
  List.flatMap_append

theorem piecesBytes_writeLine_ne_nil (indent : Indent) (content : String) :
    piecesBytes (writeLine indent content) ≠ [] := by
  have hbreak : Sink.textBytes "\n" ≠ [] := by decide
  simp [piecesBytes, writeLine, hbreak]

theorem piecesBytes_writeLines_ne_nil (indent : Indent) {lines : List Line}
    (hlines : lines ≠ []) : piecesBytes (writeLines indent lines) ≠ [] := by
  obtain ⟨line, more, rfl⟩ := List.exists_cons_of_ne_nil hlines
  rw [writeLines, List.flatMap_cons, piecesBytes_append]
  intro hnil
  exact piecesBytes_writeLine_ne_nil _ _ (List.append_eq_nil_iff.mp hnil).1

theorem blockLines_ne_nil (comment head : String) (members : List Line) :
    blockLines comment head members ≠ [] := by
  simp [blockLines]

/-- Every node has a line. -/
theorem nodeLines_ne_nil (node : Tree.Node) : nodeLines node ≠ [] := by
  cases node with
  | scope scope =>
    cases scope
    rw [nodeLines, namespaceLines]
    exact blockLines_ne_nil _ _ _
  | interface interface => exact blockLines_ne_nil _ _ _
  | typedef typedef => exact List.cons_ne_nil _ _
  | property property => exact List.cons_ne_nil _ _
  | method method => exact List.cons_ne_nil _ _
  | signature signature => exact signatureLines_ne_nil signature

theorem Write.bytes_ne_nil (write : Write) : write.bytes ≠ [] := by
  cases write with
  | line indent content => exact piecesBytes_writeLine_ne_nil indent content
  | comment indent content => exact piecesBytes_writeLine_ne_nil indent _
  | node indent written =>
    rw [Write.bytes, Write.pieces, writeNode_eq_lines]
    exact piecesBytes_writeLines_ne_nil indent (nodeLines_ne_nil written)

/-! ## One write -/

theorem take_limited (taken bytes : List UInt8) (room : Nat) :
    (Sink.mk taken (some room)).take bytes =
      (⟨(bytes.take room).reverse ++ taken, some (room - bytes.length)⟩,
        decide (bytes.length ≤ room)) := by
  simp only [Sink.take, Prod.mk.injEq, Sink.mk.injEq, Option.some.injEq, true_and, and_true]
  rw [List.length_take]
  omega

/-- A limited sink takes the bytes it has room for, and the write succeeds exactly if
these are all. -/
theorem write_limited (taken : List UInt8) (room : Nat) (pieces : List String) :
    (Sink.mk taken (some room)).write pieces =
      (⟨((piecesBytes pieces).take room).reverse ++ taken,
          some (room - (piecesBytes pieces).length)⟩,
        decide ((piecesBytes pieces).length ≤ room)) := by
  induction pieces generalizing taken room with
  | nil => simp [Sink.write, piecesBytes]
  | cons piece pieces ih =>
    have hbytes : piecesBytes (piece :: pieces) = Sink.textBytes piece ++ piecesBytes pieces :=
      rfl
    rw [Sink.write, take_limited, hbytes, List.take_append, List.length_append]
    by_cases hfits : (Sink.textBytes piece).length ≤ room
    · -- the room that the first piece leaves is that of the other ones
      rw [decide_eq_true hfits]
      dsimp only
      have hsame : (piecesBytes pieces).length ≤ room - (Sink.textBytes piece).length ↔
          (Sink.textBytes piece).length + (piecesBytes pieces).length ≤ room := by
        omega
      rw [ih, List.reverse_append, List.append_assoc, Nat.sub_sub, decide_eq_decide.mpr hsame]
    · -- the first piece already fills the sink, and nothing of the others follows
      have hfull : room - (Sink.textBytes piece).length = 0 := by omega
      have htotal : ¬ (Sink.textBytes piece).length + (piecesBytes pieces).length ≤ room := by
        omega
      rw [decide_eq_false hfits, decide_eq_false htotal, hfull, List.take_zero, List.append_nil]
      dsimp only
      rw [Nat.sub_eq_zero_of_le (by omega)]

theorem write_unlimited (taken : List UInt8) (pieces : List String) :
    (Sink.mk taken none).write pieces =
      (⟨(piecesBytes pieces).reverse ++ taken, none⟩, true) := by
  induction pieces generalizing taken with
  | nil => rfl
  | cons piece pieces ih =>
    have hbytes : piecesBytes (piece :: pieces) = Sink.textBytes piece ++ piecesBytes pieces :=
      rfl
    rw [Sink.write, Sink.take]
    dsimp only
    rw [ih, hbytes, List.reverse_append, List.append_assoc]

/-! ## Runs -/

/-- The bytes that a sequence of writes would like to put out. -/
def writesBytes (writes : List Write) : List UInt8 := writes.flatMap Write.bytes

theorem writesBytes_cons (write : Write) (writes : List Write) :
    writesBytes (write :: writes) = write.bytes ++ writesBytes writes :=
  List.flatMap_cons

theorem writesBytes_append (first second : List Write) :
    writesBytes (first ++ second) = writesBytes first ++ writesBytes second :=
  List.flatMap_append

theorem writesBytes_ne_nil {writes : List Write} (hwrites : writes ≠ []) :
    writesBytes writes ≠ [] := by
  obtain ⟨write, more, rfl⟩ := List.exists_cons_of_ne_nil hwrites
  rw [writesBytes_cons]
  intro hnil
  exact write.bytes_ne_nil (List.append_eq_nil_iff.mp hnil).1

theorem run_unlimited (taken : List UInt8) (writes : List Write) :
    ((Sink.mk taken none).run writes).1 = ⟨(writesBytes writes).reverse ++ taken, none⟩ := by
  induction writes generalizing taken with
  | nil => rfl
  | cons write writes ih =>
    rw [Sink.run, write_unlimited]
    dsimp only
    rw [ih, writesBytes_cons, List.reverse_append, List.append_assoc, Write.bytes]

/-- A run on a limited sink fills it as one long write would. -/
theorem run_limited (taken : List UInt8) (room : Nat) (writes : List Write) :
    ((Sink.mk taken (some room)).run writes).1 =
      ⟨((writesBytes writes).take room).reverse ++ taken,
        some (room - (writesBytes writes).length)⟩ := by
  induction writes generalizing taken room with
  | nil => simp [Sink.run, writesBytes]
  | cons write writes ih =>
    -- a failed write leaves no room, so that going on after it adds nothing
    rw [Sink.run, write_limited]
    dsimp only
    rw [ih, writesBytes_cons, List.take_append, List.length_append, List.reverse_append,
      List.append_assoc, Nat.sub_sub, Write.bytes]

theorem length_verdicts (sink : Sink) (writes : List Write) :
    (sink.run writes).2.length = writes.length := by
  induction writes generalizing sink with
  | nil => rfl
  | cons write writes ih => simp [Sink.run, ih]

/-- A write of a run succeeds exactly if there is room for it and all writes before it. -/
theorem verdict_limited (taken : List UInt8) (room : Nat) (writes : List Write) (i : Nat)
    (hi : i < writes.length) :
    ((Sink.mk taken (some room)).run writes).2[i]? =
      some (decide ((writesBytes (writes.take (i + 1))).length ≤ room)) := by
  induction writes generalizing taken room i with
  | nil => exact absurd hi (Nat.not_lt_zero i)
  | cons write writes ih =>
    rw [Sink.run, write_limited]
    dsimp only
    cases i with
    | zero => simp [writesBytes, Write.bytes]
    | succ i =>
      have hi' : i < writes.length := by simpa using hi
      rw [List.getElem?_cons_succ, ih _ _ i hi', List.take_succ_cons, writesBytes_cons,
        List.length_append, Write.bytes]
      -- when the first write leaves no room, the later one fails because it is not empty
      have hsome : 0 < (writesBytes (writes.take (i + 1))).length := by
        refine List.length_pos_iff.mpr (writesBytes_ne_nil ?_)
        intro hnil
        rw [List.take_eq_nil_iff] at hnil
        rcases hnil with hzero | hempty
        · omega
        · rw [hempty] at hi'
          exact absurd hi' (Nat.not_lt_zero i)
      exact congrArg some (decide_eq_decide.mpr (by omega))

theorem writesBytes_take_le (writes : List Write) {i j : Nat} (hij : i ≤ j) :
    (writesBytes (writes.take i)).length ≤ (writesBytes (writes.take j)).length := by
  obtain ⟨more, hmore⟩ := List.take_prefix_take_left hij (l := writes)
  rw [← hmore, writesBytes_append, List.length_append]
  exact Nat.le_add_right _ _

/-- A run that has filled the sink leaves it as it is. -/
theorem run_limited_of_full (limit : Nat) (writes : List Write) {i j : Nat} (hij : i ≤ j)
    (hfull : limit ≤ (writesBytes (writes.take i)).length) :
    ((Sink.empty (some limit)).run (writes.take j)).1 =
      ((Sink.empty (some limit)).run (writes.take i)).1 := by
  obtain ⟨more, hmore⟩ := List.take_prefix_take_left hij (l := writes)
  rw [← hmore, Sink.empty, run_limited, run_limited, writesBytes_append,
    List.take_append_of_le_length hfull, List.length_append, Nat.sub_eq_zero_of_le hfull,
    Nat.sub_eq_zero_of_le (Nat.le_add_right_of_le hfull)]

/-- **A sink that fills up holds exactly a prefix.** Let a sequence of writes go to an
empty sink that takes `limit` bytes. It then holds the first `limit` bytes of what the
same sequence puts into an unlimited sink; a write succeeds exactly if the writes up to
and including it put at most `limit` bytes into an unlimited sink; and after a write that
failed every write fails and leaves the sink as it is. -/
theorem run_limited_eq_prefix (limit : Nat) (writes : List Write) :
    let unlimited := (Sink.empty none).run
    let limited := (Sink.empty (some limit)).run
    (limited writes).1.bytes = (unlimited writes).1.bytes.take limit ∧
      (limited writes).2.length = writes.length ∧
      (∀ i < writes.length, (limited writes).2[i]? =
        some (decide ((unlimited (writes.take (i + 1))).1.bytes.length ≤ limit))) ∧
      ∀ i j, i < j → j < writes.length → (limited writes).2[i]? = some false →
        (limited writes).2[j]? = some false ∧
          (limited (writes.take (j + 1))).1 = (limited (writes.take j)).1 := by
  intro unlimited limited
  have hunlimited : ∀ sequence, (unlimited sequence).1.bytes = writesBytes sequence := by
    intro sequence
    simp only [unlimited, Sink.empty, run_unlimited, Sink.bytes, List.append_nil,
      List.reverse_reverse]
  have hverdict : ∀ i < writes.length, (limited writes).2[i]? =
      some (decide ((writesBytes (writes.take (i + 1))).length ≤ limit)) :=
    fun i hi => verdict_limited [] limit writes i hi
  refine ⟨?_, length_verdicts _ writes, ?_, ?_⟩
  · rw [hunlimited]
    simp only [limited, Sink.empty, run_limited, Sink.bytes, List.append_nil,
      List.reverse_reverse]
  · intro i hi
    rw [hverdict i hi, hunlimited]
  · intro i j hij hj hfailed
    rw [hverdict i (by omega), Option.some.injEq, decide_eq_false_iff_not] at hfailed
    -- what was too much for the write at `i` is still too much for every later one
    have hbefore := writesBytes_take_le writes (i := i + 1) (j := j) (by omega)
    have hwith := writesBytes_take_le writes (i := j) (j := j + 1) (by omega)
    constructor
    · rw [hverdict j hj, Option.some.injEq, decide_eq_false_iff_not]
      omega
    · exact run_limited_of_full limit writes (Nat.le_succ j) (by omega)

end Ambient.Layout
