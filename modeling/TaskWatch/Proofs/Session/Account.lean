import TaskWatch.Proofs.Session.Ledger

/-!
# Accounts of sessions and listeners

Two laws hold of the ledger along every run. A session that ends is entered once: its end has been
announced, or is still to be announced, or will never be announced because the callback for stopped
sessions has panicked. And a listener that stays registered has been told of everything that has
been announced meanwhile, or is still to be told.

## Main definitions

* `Ledger.ended`, `Ledger.owed`, `Ledger.gone` — the sessions that have gone, and what has become of
  their announcements.
* `Ledger.heard`, `Ledger.awaited` — what a listener has been told of a task, and is still to be
  told.

## Main results

* `Machine.Run.balances` — no session is entered twice, and none that lives.
* `Machine.Run.mem_gone` — every session that ends is entered.
* `Machine.Run.heard` — what a listener hears.
* `Machine.Run.news` — what is announced is what the machine is about to tell.
* `Machine.Run.delivered` — who is told is told by the machine.
-/

namespace TaskWatch

variable {σ κ : Type}

/-- The session whose end is told. -/
def Tidings.ended? : Tidings → Option SessionName
  | ended S _ => some S
  | began _ => none

/-- Whether tidings are about the sessions of a task. -/
def Tidings.isOf (number : Nat) (id : TaskId) (t : Tidings) : Bool :=
  t.session.tracker == number && t.session.id == id

theorem Tidings.isOf_iff {t : Tidings} {number : Nat} {id : TaskId} :
    t.isOf number id = true ↔ t.session.tracker = number ∧ t.session.id = id := by
  rw [isOf, Bool.and_eq_true, beq_iff_eq, beq_iff_eq]

/-- The session whose end is to be announced. -/
def Errand.owed? : Errand κ → Option SessionName
  | announce S _ => some S
  | tell _ _ => none

/-- What the listener with a number is still to be told of a task. -/
def Errand.awaited (number : Nat) (id : TaskId) (listener : Nat) :
    Errand κ → List (Audience κ × Tidings)
  | announce _ _ => []
  | tell t listeners =>
    if t.isOf number id then
      (listeners.filter fun L => L.1 == listener).map fun L => (L.2, t)
    else []

namespace Ledger

/-- The sessions whose end has been announced. -/
def ended (l : Ledger κ) : List SessionName := l.announced.filterMap Tidings.ended?

/-- The sessions that have ended and are still to be announced. -/
def owed (l : Ledger κ) : List SessionName := l.errands.filterMap Errand.owed?

/-- The sessions that have ended. -/
def gone (l : Ledger κ) : List SessionName := l.ended ++ l.owed ++ l.lost

/-- What has been announced of a task. -/
def about (l : Ledger κ) (number : Nat) (id : TaskId) : List Tidings :=
  l.announced.filter (Tidings.isOf number id)

/-- What the listener with a number has been told of a task. -/
def heard (l : Ledger κ) (number : Nat) (id : TaskId) (listener : Nat) :
    List (Audience κ × Tidings) :=
  (l.told.filter fun (L, t) => L.1 == listener && t.isOf number id).map fun (L, t) => (L.2, t)

/-- What the listener with a number is still to be told of a task. -/
def awaited (l : Ledger κ) (number : Nat) (id : TaskId) (listener : Nat) :
    List (Audience κ × Tidings) :=
  l.errands.flatMap (Errand.awaited number id listener)

theorem mem_ended {l : Ledger κ} {S : SessionName} :
    S ∈ l.ended ↔ ∃ reason, .ended S reason ∈ l.announced := by
  rw [ended, List.mem_filterMap]
  constructor
  · rintro ⟨t, mem, same⟩
    cases t with
    | began T => simp [Tidings.ended?] at same
    | ended T reason =>
      obtain rfl : T = S := Option.some.inj same
      exact ⟨reason, mem⟩
  · rintro ⟨reason, mem⟩
    exact ⟨_, mem, rfl⟩

theorem mem_gone_of_ended {l : Ledger κ} {S : SessionName} (mem : S ∈ l.ended) : S ∈ l.gone :=
  List.mem_append_left _ (List.mem_append_left _ mem)

theorem mem_heard {l : Ledger κ} {number listener : Nat} {id : TaskId} {a : Audience κ}
    {t : Tidings} (mem : (a, t) ∈ l.heard number id listener) : ((listener, a), t) ∈ l.told := by
  obtain ⟨⟨⟨n, b⟩, t'⟩, kept, same⟩ := List.mem_map.mp mem
  obtain ⟨told, own⟩ := List.mem_filter.mp kept
  obtain ⟨rfl, rfl⟩ := Prod.mk.inj same
  have same : n = listener := by
    simp only [Bool.and_eq_true, beq_iff_eq] at own
    exact own.1
  exact same ▸ told

/-- The ledger agrees with the world about the sessions that have ended. -/
structure Balances (l : Ledger κ) (w : World κ) : Prop where
  /-- No session ends twice. -/
  once : l.gone.Nodup
  created : ∀ S ∈ l.gone, S.serial < w.nextSerial
  dead : ∀ S ∈ l.gone, w.lives S = false

variable {m m' : Machine σ κ} {l l' : Ledger κ}

/-! ### Sessions that have ended -/

/-- In a move no session ends, or one, which is entered. -/
theorem Advance.gone (advance : l.Advance m l' m') :
    l'.gone.Perm l.gone ∧ (∀ S, m.world.lives S = true → m'.world.lives S = true) ∨
      ∃ S, l'.gone.Perm (S :: l.gone) ∧ m.world.Ends S m'.world := by
  cases advance with
  | still retains => exact .inl ⟨.refl _, fun S living => (retains.lives S).trans living⟩
  | told first retains goes =>
    refine .inl ⟨.of_eq ?_, fun S living => (retains.lives S).trans living⟩
    simp [Ledger.gone, Ledger.ended, owed, first, List.filterMap_cons, Errand.owed?]
  | served first retains =>
    refine .inl ⟨.of_eq ?_, fun S living => (retains.lives S).trans living⟩
    simp [Ledger.gone, Ledger.ended, owed, first, List.filterMap_cons, Errand.owed?]
  | proceeds first retains =>
    refine .inl ⟨.of_eq ?_, fun S living => (retains.lives S).trans living⟩
    simp [Ledger.gone, Ledger.ended, owed, announce, first, List.filterMap_cons, Errand.owed?,
      Tidings.ended?]
  | @loses _ S reason errands first control top retains =>
    refine .inl ⟨List.perm_iff_count.mpr fun T => ?_, fun S living => (retains.lives S).trans living⟩
    simp only [Ledger.gone, Ledger.ended, owed, first, List.count_append, List.filterMap_cons,
      Errand.owed?, List.count_cons, List.count_nil]
    omega
  | began begins =>
    refine .inl ⟨.of_eq ?_, fun T living => begins.lives_of_lives living⟩
    simp [Ledger.gone, Ledger.ended, owed, announce, List.filterMap_cons, Errand.owed?,
      Tidings.ended?]
  | @ended _ S reason ends =>
    refine .inr ⟨S, List.perm_iff_count.mpr fun T => ?_, ends⟩
    simp only [Ledger.gone, Ledger.ended, owed, announce, List.count_append, List.filterMap_cons,
      List.filterMap_append, List.filterMap_nil, Errand.owed?, Tidings.ended?, List.count_cons,
      List.count_nil]
    omega
  | @ending _ S reason ends =>
    refine .inr ⟨S, List.perm_iff_count.mpr fun T => ?_, ends⟩
    simp only [Ledger.gone, Ledger.ended, owed, defer, List.count_append, List.filterMap_cons,
      Errand.owed?, List.count_cons]
    omega

theorem Advance.balances (advance : l.Advance m l' m') (balances : l.Balances m.world)
    (sound : m.Sound) (succeeds : m.world.Succeeds m'.world) : l'.Balances m'.world := by
  have dies : ∀ S, S.serial < m.world.nextSerial → m.world.lives S = false →
      m'.world.lives S = false := by
    intro S created dead
    refine Bool.eq_false_iff.mpr fun living => ?_
    rcases succeeds.lives S living with before | ⟨new, _⟩
    · simp [dead] at before
    · exact Nat.not_lt_of_le new created
  have stay : ∀ S ∈ l.gone, S.serial < m'.world.nextSerial ∧ m'.world.lives S = false :=
    fun S mem => ⟨Nat.lt_of_lt_of_le (balances.created S mem) succeeds.serials,
      dies S (balances.created S mem) (balances.dead S mem)⟩
  obtain ⟨same, _⟩ | ⟨S, more, ends⟩ := advance.gone
  · exact ⟨same.nodup_iff.mpr balances.once, fun T mem => (stay T (same.subset mem)).1,
      fun T mem => (stay T (same.subset mem)).2⟩
  · have new : S ∉ l.gone := fun mem => by
      have dead := balances.dead S mem
      simp [ends.lived] at dead
    have ended : S.serial < m'.world.nextSerial ∧ m'.world.lives S = false := by
      refine ⟨Nat.lt_of_lt_of_le (sound.given S ends.lived) succeeds.serials, ?_⟩
      exact Bool.eq_false_iff.mpr fun living => ((ends.lives S).mp living).2 rfl
    have all : ∀ T ∈ l'.gone, T.serial < m'.world.nextSerial ∧ m'.world.lives T = false := by
      intro T mem
      rcases List.mem_cons.mp (more.subset mem) with rfl | old
      · exact ended
      · exact stay T old
    exact ⟨more.nodup_iff.mpr (List.nodup_cons.mpr ⟨new, balances.once⟩),
      fun T mem => (all T mem).1, fun T mem => (all T mem).2⟩

/-- A session that ends in a move is entered, and one that has been entered stays so. -/
theorem Advance.mem_gone (advance : l.Advance m l' m') {S : SessionName}
    (entered : S ∈ l.gone ∨ m.world.lives S = true ∧ m'.world.lives S = false) : S ∈ l'.gone := by
  obtain ⟨same, lives⟩ | ⟨T, more, ends⟩ := advance.gone
  · rcases entered with mem | ⟨lived, dead⟩
    · exact same.symm.subset mem
    · simp [lives S lived] at dead
  · refine more.symm.subset ?_
    rcases entered with mem | ⟨lived, dead⟩
    · exact List.mem_cons_of_mem _ mem
    · by_cases same : S = T
      · exact same ▸ List.mem_cons_self
      · have lives : m'.world.lives S = true := (ends.lives S).mpr ⟨lived, same⟩
        simp [lives] at dead

/-! ### What listeners hear -/

variable {number listener : Nat} {id : TaskId} {a : Audience κ}

/-- What is announced a registered listener is to be told. -/
private theorem awaited_of_registered {watchers : Registry (Audience κ)} (sound : watchers.Sound)
    (registered : (listener, a) ∈ watchers.entries) {t : Tidings} (of : t.isOf number id = true) :
    (Errand.tell t watchers.entries).awaited number id listener = [(a, t)] := by
  rw [Errand.awaited, if_pos of, sound.filter_number registered]
  rfl

private theorem announce_heard (registries : Nat → Registry (Audience κ))
    (sound : (registries number).Sound) (registered : (listener, a) ∈ (registries number).entries)
    (l : Ledger κ) (t : Tidings) :
    ∃ news, (l.announce t (registries t.session.tracker).entries).about number id =
        l.about number id ++ news ∧
      l.heard number id listener ++
          (l.announce t (registries t.session.tracker).entries).awaited number id listener =
        l.heard number id listener ++ news.map (a, ·) ++ l.awaited number id listener := by
  by_cases of : t.isOf number id = true
  · have here : t.session.tracker = number := (Tidings.isOf_iff.mp of).1
    refine ⟨[t], ?_, ?_⟩
    · rw [about, announce, List.filter_append, List.filter_cons_of_pos of]
      rfl
    · rw [awaited, announce, List.flatMap_cons, here, awaited_of_registered sound registered of,
        List.append_assoc]
      rfl
  · refine ⟨[], ?_, ?_⟩
    · rw [about, announce, List.filter_append, List.filter_cons_of_neg of]
      rfl
    · rw [awaited, announce, List.flatMap_cons, Errand.awaited, if_neg of, List.map_nil,
        List.append_nil]
      rfl

/-- In a move a registered listener comes to await what is announced, or it is told. -/
theorem Advance.heard (advance : l.Advance m l' m') (id : TaskId)
    (sound : (m'.tracker number).watchers.Sound)
    (registered : (listener, a) ∈ (m'.tracker number).watchers.entries) :
    ∃ news, l'.about number id = l.about number id ++ news ∧
      l'.heard number id listener ++ l'.awaited number id listener =
        l.heard number id listener ++ news.map (a, ·) ++ l.awaited number id listener := by
  have unchanged : ∀ {l' : Ledger κ}, l'.about number id = l.about number id →
      l'.heard number id listener ++ l'.awaited number id listener =
        l.heard number id listener ++ l.awaited number id listener →
      ∃ news, l'.about number id = l.about number id ++ news ∧
        l'.heard number id listener ++ l'.awaited number id listener =
          l.heard number id listener ++ news.map (a, ·) ++ l.awaited number id listener :=
    fun about same => ⟨[], by rw [about, List.append_nil], by simpa using same⟩
  cases advance with
  | still retains => exact unchanged rfl rfl
  | @told _ t L rest errands first retains goes =>
    refine unchanged rfl ?_
    by_cases of : t.isOf number id = true <;> by_cases mine : L.1 = listener <;>
      simp [Ledger.heard, awaited, first, Errand.awaited, of, mine]
  | @served _ t errands first retains =>
    refine unchanged rfl ?_
    simp [Ledger.heard, awaited, first, Errand.awaited]
  | @proceeds _ S reason errands first retains =>
    have same : l.awaited number id listener =
        ({ l with errands } : Ledger κ).awaited number id listener := by
      rw [awaited, awaited, first, List.flatMap_cons, Errand.awaited, List.nil_append]
    rw [same]
    exact announce_heard (fun k => (m'.tracker k).watchers) sound registered { l with errands }
      (.ended S reason)
  | loses first control top retains =>
    refine unchanged rfl ?_
    simp [Ledger.heard, awaited, first, Errand.awaited]
  | began begins =>
    exact announce_heard (fun k => (m'.tracker k).watchers) sound registered l (.began _)
  | ended reason ends =>
    exact announce_heard (fun k => (m'.tracker k).watchers) sound registered l (.ended _ reason)
  | ending reason ends => exact unchanged rfl rfl

/-- What has been announced stays so. -/
theorem Advance.announced (advance : l.Advance m l' m') : l.announced <+: l'.announced := by
  cases advance with
  | still retains => exact List.prefix_rfl
  | told first retains goes => exact List.prefix_rfl
  | served first retains => exact List.prefix_rfl
  | proceeds first retains => exact List.prefix_append _ _
  | loses first control top retains => exact List.prefix_rfl
  | began begins => exact List.prefix_append _ _
  | ended reason ends => exact List.prefix_append _ _
  | ending reason ends => exact List.prefix_rfl

/-! ### Who has been told -/

/-- Somebody who is told in a move is told by the machine. -/
theorem Advance.delivered (advance : l.Advance m l' m') {L : Listener κ} {t : Tidings}
    (told : (L, t) ∈ l'.told) :
    (L, t) ∈ l.told ∨ ∃ rest, m' = m.below.deliver (.session t.event) (L.2 :: rest) := by
  cases advance with
  | @told _ t' L' rest errands first retains goes =>
    rcases List.mem_append.mp told with old | new
    · exact .inl old
    · obtain ⟨rfl, rfl⟩ := Prod.mk.inj (List.mem_singleton.mp new)
      exact .inr ⟨_, goes⟩
  | _ => exact .inl told

/-- The announcement of a session is lost when a panic has reached it. -/
theorem Advance.panicked (advance : l.Advance m l' m') {S : SessionName} (lost : S ∈ l'.lost) :
    S ∈ l.lost ∨ m.control = .unwinding ∧
      ∃ reason, m.stack.head? = some (.announcing S.tracker S.id reason) := by
  cases advance with
  | @loses _ T reason errands first control top retains =>
    rcases List.mem_append.mp lost with old | new
    · exact .inl old
    · obtain rfl := List.mem_singleton.mp new
      exact .inr ⟨control, reason, top⟩
  | _ => exact .inl lost

/-- What is told or to be told has been announced. -/
structure Honest (l : Ledger κ) : Prop where
  told : ∀ L t, (L, t) ∈ l.told → t ∈ l.announced
  errands : ∀ t listeners, .tell t listeners ∈ l.errands → t ∈ l.announced

theorem Honest.announce (honest : l.Honest) (t : Tidings) (listeners : List (Listener κ)) :
    (l.announce t listeners).Honest where
  told L t' mem := List.mem_append_left _ (honest.told L t' mem)
  errands t' others mem := by
    rcases List.mem_cons.mp mem with same | mem
    · obtain ⟨rfl, _⟩ := Errand.tell.inj same
      exact List.mem_append_right _ List.mem_cons_self
    · exact List.mem_append_left _ (honest.errands t' others mem)

theorem Advance.honest (advance : l.Advance m l' m') (honest : l.Honest) : l'.Honest := by
  have left : ∀ {first : Errand κ} {errands}, l.errands = first :: errands →
      ∀ t listeners, .tell t listeners ∈ errands → t ∈ l.announced :=
    fun split t listeners mem => honest.errands t listeners (split ▸ List.mem_cons_of_mem _ mem)
  cases advance with
  | still retains => exact honest
  | @told _ t L rest errands first retains goes =>
    have announced : t ∈ l.announced := honest.errands t (L :: rest) (first ▸ List.mem_cons_self)
    refine ⟨fun L' t' mem => ?_, fun t' others mem => ?_⟩
    · rcases List.mem_append.mp mem with mem | mem
      · exact honest.told L' t' mem
      · obtain ⟨_, rfl⟩ := Prod.mk.inj (List.mem_singleton.mp mem)
        exact announced
    · rcases List.mem_cons.mp mem with same | mem
      · obtain ⟨rfl, _⟩ := Errand.tell.inj same
        exact announced
      · exact left first t' others mem
  | served first retains => exact ⟨honest.told, left first⟩
  | @proceeds _ S reason errands first retains =>
    exact Honest.announce (l := { l with errands }) ⟨honest.told, left first⟩ _ _
  | loses first control top retains => exact ⟨honest.told, left first⟩
  | began begins => exact honest.announce _ _
  | ended reason ends => exact honest.announce _ _
  | ending reason ends =>
    refine ⟨honest.told, fun t others mem => ?_⟩
    rcases List.mem_cons.mp mem with same | mem
    · simp at same
    · exact honest.errands t others mem

end Ledger

/-! ### Runs -/

namespace Machine

variable {c : Consumer σ κ} {given : Code σ κ → Prop} {m₀ m₁ m₂ : Machine σ κ}
  {past later : List (Machine σ κ)}

section Runs

variable (reach : Reachable c m₀) (calm : m₀.errandFrames = [])

include reach calm

/-- At every time no session has been entered twice, and none that lives. -/
theorem Run.balances (run : Run c given m₀ past m₁) : (Ledger.after m₀ past).Balances m₁.world := by
  induction run with
  | start => exact ⟨List.nodup_nil, by simp [Ledger.after, Ledger.gone, Ledger.ended, Ledger.owed],
      by simp [Ledger.after, Ledger.gone, Ledger.ended, Ledger.owed]⟩
  | move run next ih =>
    exact (run.advance calm next).balances ih (reach.run run).sound next.succeeds

omit reach in
/-- Every session that has ended has been entered. -/
theorem Run.mem_gone {S : SessionName} (run : Run c given m₀ past m₁)
    (lived : m₁.world.lives S = true) (further : Run c given m₁ later m₂)
    (dead : m₂.world.lives S = false) : S ∈ (Ledger.after m₀ (past ++ later)).gone := by
  induction further with
  | start => simp [lived] at dead
  | @move states m₂ m₃ further next ih =>
    rw [← List.append_assoc]
    refine ((run.append further).advance calm next).mem_gone ?_
    by_cases living : m₂.world.lives S = true
    · exact .inr ⟨living, dead⟩
    · exact .inl (ih (Bool.eq_false_iff.mpr living))

/-- A session that lives has not been entered yet. -/
theorem Run.not_mem_gone {S : SessionName} (run : Run c given m₀ past m₁)
    (lived : m₁.world.lives S = true) : S ∉ (Ledger.after m₀ past).gone := fun mem => by
  simp [(run.balances reach calm).dead S mem] at lived

omit reach in
/-- When the machine has nothing to do, the end of every session that has ended has been announced,
or will never be announced. -/
theorem Run.mem_ended_or_lost {S : SessionName} (run : Run c given m₀ past m₁)
    (lived : m₁.world.lives S = true) (further : Run c given m₁ later m₂)
    (dead : m₂.world.lives S = false) (idle : m₂.isIdle = true) :
    S ∈ (Ledger.after m₀ (past ++ later)).ended ∨ S ∈ (Ledger.after m₀ (past ++ later)).lost := by
  have owed : (Ledger.after m₀ (past ++ later)).owed = [] := by
    rw [Ledger.owed, (run.append further).errands_of_isIdle calm idle]
    rfl
  have gone := run.mem_gone calm lived further dead
  rw [Ledger.gone, owed, List.append_nil] at gone
  exact List.mem_append.mp gone

/-- While a listener stays registered it is told of everything that is announced, or is still to be
told; and so it is of what it was to be told before. -/
theorem Run.heard {number listener : Nat} {a : Audience κ} (id : TaskId)
    (run : Run c given m₀ past m₁) (further : Run c given m₁ later m₂)
    (registered : ∀ m ∈ later, (listener, a) ∈ (m.tracker number).watchers.entries) :
    ∃ news, (Ledger.after m₀ (past ++ later)).about number id =
        (Ledger.after m₀ past).about number id ++ news ∧
      ((Ledger.after m₀ (past ++ later)).heard number id listener ++
          (Ledger.after m₀ (past ++ later)).awaited number id listener).Perm
        ((Ledger.after m₀ past).heard number id listener ++
          (Ledger.after m₀ past).awaited number id listener ++ news.map (a, ·)) := by
  induction further with
  | start =>
    rw [List.append_nil]
    exact ⟨[], by simp, by simp⟩
  | @move states m₂ m₃ further next ih =>
    obtain ⟨news, about, heard⟩ := ih fun m mem => registered m (List.mem_append_left _ mem)
    rw [← List.append_assoc]
    have numbered := (reach.run ((run.append further).move next)).numbered number
    obtain ⟨more, about', heard'⟩ := ((run.append further).advance calm next).heard id
      numbered (registered m₃ (List.mem_append_right _ List.mem_cons_self))
    refine ⟨news ++ more, by rw [about', about, List.append_assoc], ?_⟩
    rw [heard', List.map_append, ← List.append_assoc, List.append_assoc (Ledger.heard _ _ _ _)]
    refine (List.perm_append_comm.append_left _).trans ?_
    rw [← List.append_assoc]
    exact heard.append_right _

end Runs

/-- What is announced from some time on is what the machine is about to tell from then on. -/
theorem Run.news (calm : m₀.errandFrames = []) (run : Run c given m₀ past m₁)
    (further : Run c given m₁ later m₂) :
    ∃ news, (Ledger.after m₀ (past ++ later)).announced = (Ledger.after m₀ past).announced ++ news ∧
      news.map Tidings.notice = later.flatMap emits := by
  have grows : (Ledger.after m₀ past).announced <+: (Ledger.after m₀ (past ++ later)).announced := by
    induction further with
    | start => simp
    | move further next ih =>
      rw [← List.append_assoc]
      exact ih.trans ((run.append further).advance calm next).announced
  obtain ⟨news, announced⟩ := grows
  refine ⟨news, announced.symm, ?_⟩
  have all := (run.append further).notices calm
  rw [Ledger.notices, ← announced, List.map_append, List.flatMap_append, ← run.notices calm] at all
  exact List.append_cancel_left all

theorem Run.honest (calm : m₀.errandFrames = []) (run : Run c given m₀ past m₁) :
    (Ledger.after m₀ past).Honest := by
  induction run with
  | start => exact ⟨fun _ _ => nofun, fun _ _ => nofun⟩
  | move run next ih => exact (run.advance calm next).honest ih

/-- Who is told of something that has not been announced before is told by the machine later on. -/
theorem Run.delivered (calm : m₀.errandFrames = []) (run : Run c given m₀ past m₁)
    (further : Run c given m₁ later m₂) {L : Listener κ} {t : Tidings}
    (told : (L, t) ∈ (Ledger.after m₀ (past ++ later)).told)
    (fresh : t ∉ (Ledger.after m₀ past).announced) :
    ∃ m ∈ later, ∃ (m' : Machine σ κ) (rest : List (Audience κ)),
      m = m'.deliver (.session t.event) (L.2 :: rest) := by
  induction further with
  | start =>
    rw [List.append_nil] at told
    exact absurd ((run.honest calm).told L t told) fresh
  | @move states m₂ m₃ further next ih =>
    rw [← List.append_assoc] at told
    rcases ((run.append further).advance calm next).delivered told with old | ⟨rest, goes⟩
    · obtain ⟨m, mem, delivers⟩ := ih old
      exact ⟨m, List.mem_append_left _ mem, delivers⟩
    · exact ⟨m₃, List.mem_append_right _ List.mem_cons_self, m₂.below, rest, goes⟩

/-- The announcement of a session that had not ended before is lost when a panic reaches it. -/
theorem Run.panicked (run : Run c given m₀ past m₁) (calm : m₀.errandFrames = [])
    (further : Run c given m₁ later m₂) {S : SessionName}
    (lost : S ∈ (Ledger.after m₀ (past ++ later)).lost) (fresh : S ∉ (Ledger.after m₀ past).gone) :
    ∃ m ∈ m₁ :: later, m.control = .unwinding ∧
      ∃ reason, m.stack.head? = some (.announcing S.tracker S.id reason) := by
  induction further with
  | start =>
    rw [List.append_nil] at lost
    exact absurd (List.mem_append_right _ lost) fresh
  | @move states m₂ m₃ further next ih =>
    rw [← List.append_assoc] at lost
    rcases ((run.append further).advance calm next).panicked lost with old | panics
    · obtain ⟨m, mem, panics⟩ := ih old
      exact ⟨m, List.mem_append_left [m₃] mem, panics⟩
    · exact ⟨m₂, List.mem_append_left [m₃] further.mem_cons, panics⟩

end Machine

end TaskWatch
