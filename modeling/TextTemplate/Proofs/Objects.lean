import TextTemplate.Memory
import TextTemplate.Proofs.Parts

/-! Objects and the values that they stand for. These are the values whose records hold every name
once, and any two of them are held by objects of one memory. -/

namespace TextTemplate

namespace Memory

variable {m m' m'' : Memory} {a n n' n'' : Nat}

theorem hasDistinctNames_read (m : Memory) (a : Nat) : (m.read a).HasDistinctNames := by
  induction a using Nat.strongRecOn with
  | ind a ih =>
    cases ha : m a with
    | scalar x => exact read_of_scalar ha ▸ Value.hasDistinctNames_scalar x
    | sequence items =>
      rw [read_of_sequence ha, Value.hasDistinctNames_sequence, List.forall_mem_map]
      exact fun x _ => ih x x.isLt
    | record fields hfields =>
      rw [read_of_record ha, Value.hasDistinctNames_record, List.forall_mem_map]
      refine ⟨?_, fun field _ => ih field.2 field.2.isLt⟩
      rw [NameMap.names_map fields (fun x => m.read x)]
      exact hfields
    | absent => exact read_of_absent ha ▸ Value.hasDistinctNames_absent

/-- The memories agree on all addresses below the bound. -/
def Agree (n : Nat) (m m' : Memory) : Prop :=
  ∀ a < n, m a = m' a

theorem Agree.trans (h : Agree n m m') (h' : Agree n' m' m'') (hle : n ≤ n') : Agree n m m'' :=
  fun a ha => (h a ha).trans (h' a (by omega))

/-- What an object stands for depends on the older objects only. -/
theorem Agree.read_eq (h : Agree n m m') (ha : a < n) : m.read a = m'.read a := by
  induction a using Nat.strongRecOn with
  | ind a ih =>
    have hpart (x : Fin a) : m.read x = m'.read x := ih x x.isLt (by omega)
    rw [read, read, ← h a ha]
    cases m a <;> simp [hpart]

/-- Places a new object. -/
def write (m : Memory) (n : Nat) (cell : Cell n) : Memory :=
  Function.update m n cell

theorem agree_write (cell : Cell n) : Agree n m (m.write n cell) :=
  fun _ ha => (Function.update_of_ne ha.ne cell m).symm

theorem write_self (cell : Cell n) : m.write n cell n = cell :=
  Function.update_self n cell m

theorem read_write_of_lt (cell : Cell n) (x : Fin n) : (m.write n cell).read x = m.read x :=
  ((agree_write cell).read_eq x.isLt).symm

theorem read_write_sequence (items : List (Fin n)) :
    (m.write n (.sequence items)).read n = .sequence (items.map fun (x : Fin n) => m.read x) := by
  rw [read_of_sequence (write_self _)]
  simp only [read_write_of_lt]

theorem read_write_record (fields : NameMap (Fin n)) (distinct : fields.names.Nodup) :
    (m.write n (.record fields distinct)).read n =
      .record (fields.map fun field => (field.1, m.read field.2)) := by
  rw [read_of_record (write_self _)]
  simp only [read_write_of_lt]

/-- New objects can be placed from the bound on that stand for the value. -/
def CanHold (v : Value) : Prop :=
  ∀ m n, ∃ m' a, n ≤ a ∧ Agree n m m' ∧ m'.read a = v

theorem exists_items {items : List Value} (h : ∀ v ∈ items, CanHold v) (m : Memory) (n : Nat) :
    ∃ m' n', n ≤ n' ∧ Agree n m m' ∧
      ∃ xs : List (Fin n'), (xs.map fun (x : Fin n') => m'.read x) = items := by
  induction items generalizing m n with
  | nil => exact ⟨m, n, le_rfl, fun _ _ => rfl, [], rfl⟩
  | cons v items ih =>
    obtain ⟨hv, hitems⟩ := List.forall_mem_cons.mp h
    obtain ⟨m', a, hna, hagree, hread⟩ := hv m n
    obtain ⟨m'', n'', hle, hagree', xs, hxs⟩ := ih hitems m' (a + 1)
    refine ⟨m'', n'', by omega, hagree.trans hagree' (by omega), ⟨a, by omega⟩ :: xs, ?_⟩
    rw [List.map_cons, hxs, ← hagree'.read_eq (by simp), hread]

theorem canHold {v : Value} (h : v.HasDistinctNames) : CanHold v := by
  induction v using Value.induction_parts with
  | scalar x =>
    intro m n
    exact ⟨_, n, le_rfl, agree_write (.scalar x), read_of_scalar (write_self _)⟩
  | sequence items ih =>
    intro m n
    have hitems := Value.hasDistinctNames_sequence.mp h
    obtain ⟨m', n', hle, hagree, xs, hxs⟩ := exists_items (fun v hv => ih v hv (hitems v hv)) m n
    refine ⟨_, n', hle, hagree.trans (agree_write (.sequence xs)) hle, ?_⟩
    rw [read_write_sequence, hxs]
  | record fields ih =>
    intro m n
    obtain ⟨hnames, hfields⟩ := Value.hasDistinctNames_record.mp h
    have hvalues : ∀ v ∈ fields.map Prod.snd, CanHold v :=
      List.forall_mem_map.mpr fun field hfield => ih field hfield (hfields field hfield)
    obtain ⟨m', n', hle, hagree, xs, hxs⟩ := exists_items hvalues m n
    -- The new record pairs the old names with the objects that hold the values.
    have hlength : (NameMap.names fields).length = xs.length := by
      simpa [NameMap.names] using (congrArg List.length hxs).symm
    have hdistinct : (NameMap.names ((NameMap.names fields).zip xs)).Nodup := by
      have hfst : NameMap.names ((NameMap.names fields).zip xs) = NameMap.names fields :=
        List.map_fst_zip hlength.le
      rw [hfst]
      exact hnames
    refine ⟨_, n', hle, hagree.trans (agree_write (.record _ hdistinct)) hle, ?_⟩
    rw [read_write_record]
    refine congrArg Value.record ?_
    calc ((NameMap.names fields).zip xs).map (fun field => (field.1, m'.read field.2))
        = (NameMap.names fields).zip (xs.map fun (x : Fin n') => m'.read x) := by
          rw [List.zip_map_right]
          rfl
      _ = (NameMap.names fields).zip (fields.map Prod.snd) := by rw [hxs]
      _ = fields := (List.zip_of_prod rfl rfl).symm
  | absent =>
    intro m n
    exact ⟨_, n, le_rfl, agree_write .absent, read_of_absent (write_self _)⟩

/-- The objects of one memory can stand for any two values whose records hold every name once, and
for no other values. -/
theorem exists_read_iff {v w : Value} : (∃ m a b, read m a = v ∧ read m b = w) ↔
    v.HasDistinctNames ∧ w.HasDistinctNames := by
  constructor
  · rintro ⟨m, a, b, rfl, rfl⟩
    exact ⟨hasDistinctNames_read m a, hasDistinctNames_read m b⟩
  · rintro ⟨hv, hw⟩
    obtain ⟨m, a, -, -, hread⟩ := canHold hv (fun _ => .absent) 0
    obtain ⟨m', b, -, hagree, hread'⟩ := canHold hw m (a + 1)
    exact ⟨m', a, b, by rw [← hagree.read_eq a.lt_succ_self, hread], hread'⟩

end Memory

end TextTemplate
