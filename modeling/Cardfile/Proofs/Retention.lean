import Cardfile.Proofs.Reload

/-!
# How long an answer is remembered

When a new answer is remembered, all answers go that are not of the same store
in the same revision.  So the memo never holds answers of two stores: the
first select on another store takes an answer out of it, even if its own store
has not changed.  As long as no other store is asked, an answer stays until
its store changes, the memo is full or its place is taken.
-/

namespace Cardfile

open Query

theorem lookup_filter {α β : Type} [BEq α] [LawfulBEq α]
    {entries : List (α × β)} {key : α} {value : β} {test : α × β → Bool}
    (found : entries.lookup key = some value)
    (passes : test (key, value) = true) :
    (entries.filter test).lookup key = some value := by
  obtain ⟨before, after, split, others⟩ := List.lookup_eq_some_iff.mp found
  apply List.lookup_eq_some_iff.mpr
  refine ⟨before.filter test, after.filter test, ?_, ?_⟩
  · rw [split, List.filter_append, List.filter_cons_of_pos passes]
  · intro entry member
    exact others entry (List.mem_of_mem_filter member)

namespace Engine

/-- What is remembered for the present state of a cabinet. -/
def current (engine : Engine) (cabinet : Cabinet) :
    List (UInt64 × Remembered) :=
  engine.memo.filter fun (_, kept) =>
    kept.serial == cabinet.serial && kept.revision == cabinet.revision

/-- All that is remembered is of one store in one revision. -/
def OfOneState (engine : Engine) : Prop :=
  ∃ serial revision, ∀ key kept, (key, kept) ∈ engine.memo →
    kept.serial = serial ∧ kept.revision = revision

variable {engine : Engine} {cabinet : Cabinet} {key : UInt64}
  {text : String} {answer : Answer}

theorem mem_current {kept : Remembered} :
    (key, kept) ∈ engine.current cabinet ↔ (key, kept) ∈ engine.memo ∧
      kept.serial = cabinet.serial ∧ kept.revision = cabinet.revision := by
  simp [current]

theorem memo_remember (engine : Engine) (cabinet : Cabinet) (key : UInt64)
    (text : String) (answer : Answer) :
    (engine.remember cabinet key text answer).memo =
      (key, ⟨text, cabinet.serial, cabinet.revision, answer⟩) ::
        (if capacity ≤ (engine.current cabinet).length then []
          else engine.current cabinet).filter (·.1 != key) := rfl

theorem state_of_mem_remember {place : UInt64} {kept : Remembered}
    (member : (place, kept) ∈
      (engine.remember cabinet key text answer).memo) :
    kept.serial = cabinet.serial ∧ kept.revision = cabinet.revision := by
  rw [memo_remember] at member
  rcases List.mem_cons.mp member with new | old
  · cases new
    exact ⟨rfl, rfl⟩
  · have roomy := (List.mem_filter.mp old).1
    split at roomy
    · cases roomy
    · exact (mem_current.mp roomy).2

theorem ofOneState_remember :
    (engine.remember cabinet key text answer).OfOneState :=
  ⟨cabinet.serial, cabinet.revision,
    fun _ _ member => state_of_mem_remember member⟩

/-- A remembered answer stays beside another that comes exactly if both are
of the same store in the same revision, there is room, and the other does not
take its place. -/
theorem remembered?_remember_iff {other : Cabinet} {place : UInt64}
    {shown : String} {added : Answer}
    (remembered : engine.remembered? cabinet key text = some answer)
    (unknown : engine.remembered? other place shown = none) :
    (engine.remember other place shown added).remembered? cabinet key text =
        some answer ↔
      (cabinet.serial = other.serial ∧ cabinet.revision = other.revision) ∧
        (engine.current other).length < capacity ∧ place ≠ key := by
  rw [remembered?_eq_some_iff] at remembered ⊢
  constructor
  · intro stays
    have apart : place ≠ key := by
      intro same
      rw [memo_remember, same, List.lookup_cons_self] at stays
      obtain ⟨sameText, serial, revision, _⟩ :=
        Remembered.mk.inj (Option.some.inj stays)
      have found : engine.remembered? other place shown = some answer := by
        rw [remembered?_eq_some_iff, same, sameText, serial, revision]
        exact remembered
      rw [found] at unknown
      cases unknown
    have state := state_of_mem_remember
      (mem_of_remembered (remembered?_eq_some_iff.mpr stays))
    refine ⟨state, ?_, apart⟩
    by_contra full
    have different : (key == place) = false := beq_false_of_ne apart.symm
    rw [memo_remember, if_pos (Nat.le_of_not_lt full), List.lookup_cons,
      different] at stays
    cases stays
  · intro room
    obtain ⟨⟨serial, revision⟩, roomy, apart⟩ := room
    have different : (key == place) = false := beq_false_of_ne apart.symm
    rw [memo_remember, if_neg (Nat.not_le_of_lt roomy), List.lookup_cons,
      different]
    apply lookup_filter
    · apply lookup_filter remembered
      simp [serial, revision]
    · simpa using apart.symm

end Engine

variable {count : Nat}

/-- A turn asks a store for a select. -/
inductive Turn.Asks :
    Turn count → Fin count → List Field → Condition → String → Prop where
  | select {which : Fin count} {text : String} {columns : List Field}
      {condition : Condition} {shown : String}
      (reads : Statement.read text = .ok (.select columns condition shown)) :
      Asks (.statement which text) which columns condition shown

theorem Turn.Asks.unique {turn : Turn count} {first second : Fin count}
    {firstColumns secondColumns : List Field}
    {firstCondition secondCondition : Condition} {firstText secondText : String}
    (asks : turn.Asks first firstColumns firstCondition firstText)
    (again : turn.Asks second secondColumns secondCondition secondText) :
    second = first ∧ secondColumns = firstColumns ∧
      secondCondition = firstCondition ∧ secondText = firstText := by
  cases asks with
  | select reads =>
      cases again with
      | select readsAgain =>
          cases Except.ok.inj (reads.symm.trans readsAgain)
          exact ⟨rfl, rfl, rfl, rfl⟩

namespace Desk

/-- A turn has an answer remembered at a place, as the memo has no answer to
what it asks a store for. -/
inductive Enters (desk : Desk count) (turn : Turn count) (which : Fin count)
    (place : UInt64) (shown : String) : Prop where
  | missed {columns : List Field} {condition : Condition}
      (asks : turn.Asks which columns condition shown)
      (placed : desk.engine.memoKey columns condition = place)
      (unknown : desk.engine.remembered? (desk.stores which).cabinet place
        shown = none)

theorem Enters.unique {desk : Desk count} {turn : Turn count}
    {first second : Fin count} {firstPlace secondPlace : UInt64}
    {firstText secondText : String}
    (enters : desk.Enters turn first firstPlace firstText)
    (again : desk.Enters turn second secondPlace secondText) :
    second = first ∧ secondPlace = firstPlace ∧ secondText = firstText := by
  cases enters with
  | missed asks place _ =>
      cases again with
      | missed asksAgain placeAgain _ =>
          obtain ⟨rfl, rfl, rfl, rfl⟩ := asks.unique asksAgain
          exact ⟨rfl, placeAgain.symm.trans place, rfl⟩

/-- The answer to a select would be given again from the memo. -/
def Remembers (desk : Desk count) (which : Fin count) (key : UInt64)
    (shown : String) (answer : Answer) : Prop :=
  desk.engine.remembered? (desk.stores which).cabinet key shown = some answer

/-- What a turn has to do with the store of an answer and with its place in
the memo lets the answer stay: the store keeps its revision, the memo is not
full when another answer enters, and nothing enters at the place of the answer
but itself. -/
structure Spares (desk : Desk count) (which : Fin count) (key : UInt64)
    (shown : String) (turn : Turn count) : Prop where
  still : ((desk.take turn).stores which).cabinet.revision =
    (desk.stores which).cabinet.revision
  roomy : ∀ {other place text}, desk.Enters turn other place text →
    (desk.engine.current (desk.stores other).cabinet).length <
      Engine.capacity
  alone : ∀ {other text}, desk.Enters turn other key text →
    other = which ∧ text = shown

theorem Spares.of_quiet {desk : Desk count} {which : Fin count}
    {turn : Turn count}
    (quiet : ∀ other place text, ¬desk.Enters turn other place text)
    (still : ((desk.take turn).stores which).cabinet.revision =
      (desk.stores which).cabinet.revision) (key : UInt64) (shown : String) :
    desk.Spares which key shown turn where
  still := still
  roomy := fun enters => absurd enters (quiet _ _ _)
  alone := fun enters => absurd enters (quiet _ _ _)

/-- Something is so for every turn of a row at the desk at which it is
taken. -/
def Throughout (so : Desk count → Turn count → Prop) :
    Desk count → List (Turn count) → Prop
  | _, [] => True
  | desk, turn :: turns => so desk turn ∧ Throughout so (desk.take turn) turns

theorem take_of_asks (desk : Desk count) {turn : Turn count}
    {which : Fin count} {columns : List Field} {condition : Condition}
    {shown : String} (asks : turn.Asks which columns condition shown) :
    desk.take turn =
      { desk with
        engine := (desk.engine.runReading (desk.stores which).cabinet
          (.select columns condition shown)).2 } := by
  cases asks with
  | select reads => exact desk.take_select which reads

theorem engine_take_of_unasked (desk : Desk count) {turn : Turn count}
    (unasked : ∀ which columns condition shown,
      ¬turn.Asks which columns condition shown) :
    (desk.take turn).engine = desk.engine := by
  cases turn with
  | change which change => rfl
  | statement which text =>
      apply desk.engine.engine_execute (desk.stores which)
      intro columns condition shown reads
      exact unasked which columns condition shown (.select reads)

/-- What a turn does to the memo: it does not look at it, it finds an answer
in it, or it has an answer remembered. -/
theorem take_cases (desk : Desk count) (turn : Turn count) :
    ((∀ which columns condition shown,
        ¬turn.Asks which columns condition shown) ∧
      (desk.take turn).engine = desk.engine) ∨
    (∃ which columns condition shown answer,
      turn.Asks which columns condition shown ∧
      desk.Remembers which (desk.engine.memoKey columns condition) shown
        answer ∧
      desk.take turn = desk) ∨
    (∃ which place shown answer, desk.Enters turn which place shown ∧
      desk.take turn =
        { desk with
          engine := desk.engine.remember (desk.stores which).cabinet place
            shown answer }) := by
  by_cases asked : ∃ which columns condition shown,
      turn.Asks which columns condition shown
  · obtain ⟨which, columns, condition, shown, asks⟩ := asked
    right
    cases found : desk.engine.remembered? (desk.stores which).cabinet
        (desk.engine.memoKey columns condition) shown with
    | some answer =>
        left
        refine ⟨which, columns, condition, shown, answer, asks, found, ?_⟩
        rw [desk.take_of_asks asks, Engine.runReading]
        simp only [found]
    | none =>
        right
        refine ⟨which, _, shown, Answer.ofRecords
          (desk.stores which).cabinet.records columns condition,
          .missed asks rfl found, ?_⟩
        rw [desk.take_of_asks asks, Engine.runReading]
        simp only [found]
  · left
    have unasked : ∀ which columns condition shown,
        ¬turn.Asks which columns condition shown := by
      intro which columns condition shown asks
      exact asked ⟨which, columns, condition, shown, asks⟩
    exact ⟨unasked, desk.engine_take_of_unasked unasked⟩

theorem ofOneState_take {desk : Desk count} (single : desk.engine.OfOneState)
    (turn : Turn count) : (desk.take turn).engine.OfOneState := by
  rcases desk.take_cases turn with
    ⟨_, same⟩ | ⟨_, _, _, _, _, _, _, same⟩ | ⟨_, _, _, _, _, entered⟩
  · rw [same]
    exact single
  · rw [same]
    exact single
  · rw [entered]
    exact Engine.ofOneState_remember

/-- The memo of a desk never holds answers of two stores, nor of two revisions
of one. -/
theorem ofOneState_foldl_take (digest : String → UInt64)
    (stores : Fin count → Store) (turns : List (Turn count)) :
    (turns.foldl Desk.take ⟨.fresh digest, stores⟩).engine.OfOneState := by
  have start : (Engine.fresh digest).OfOneState := by
    refine ⟨0, 0, ?_⟩
    intro key kept member
    cases member
  exact List.foldlRecOn
    (motive := fun desk : Desk count => desk.engine.OfOneState)
    turns _ start fun _ single turn _ => ofOneState_take single turn

variable {desk : Desk count} {which : Fin count} {key : UInt64}
  {shown : String} {answer : Answer}

/-- While an answer is remembered, what a turn asks can only be found in the
memo if it asks the store of that answer. -/
theorem Remembers.same_store {digest : String → UInt64}
    {texts : String → Prop} (sound : desk.Sound digest texts)
    (single : desk.engine.OfOneState)
    (remembers : desk.Remembers which key shown answer) {other : Fin count}
    {place : UInt64} {text : String} {found : Answer}
    (again : desk.Remembers other place text found) : other = which := by
  obtain ⟨serial, revision, only⟩ := single
  have own := only _ _ (Engine.mem_of_remembered remembers)
  have others := only _ _ (Engine.mem_of_remembered again)
  exact sound.apart (others.1.trans own.1.symm)

/-- A turn that asks for nothing takes an answer away only by a change of its
store. -/
theorem Remembers.take_iff_of_unasked
    (remembers : desk.Remembers which key shown answer) {turn : Turn count}
    (same : (desk.take turn).engine = desk.engine) :
    (desk.take turn).Remembers which key shown answer ↔
      ((desk.take turn).stores which).cabinet.revision =
        (desk.stores which).cabinet.revision := by
  have serial : ((desk.take turn).stores which).cabinet.serial =
      (desk.stores which).cabinet.serial := by
    rcases desk.stores_take turn which with kept | ⟨change, changed⟩
    · rw [kept]
    · rw [changed]
      exact ((desk.stores which).after_advances change).serial
  rw [Remembers, Engine.remembered?_eq_some_iff] at remembers ⊢
  rw [same, remembers, serial]
  simp [eq_comm]

/-- A new answer leaves another remembered exactly if both are of the same
store, there is room, and the new one has a place of its own. -/
theorem Remembers.remember_iff {digest : String → UInt64}
    {texts : String → Prop} (sound : desk.Sound digest texts)
    (remembers : desk.Remembers which key shown answer) {other : Fin count}
    {place : UInt64} {text : String}
    (unknown : desk.engine.remembered? (desk.stores other).cabinet place
      text = none) (added : Answer) :
    Remembers
        { desk with
          engine := desk.engine.remember (desk.stores other).cabinet place
            text added } which key shown answer ↔
      other = which ∧
        (desk.engine.current (desk.stores other).cabinet).length <
          Engine.capacity ∧
        place ≠ key := by
  rw [Remembers, Engine.remembered?_remember_iff remembers unknown]
  constructor
  · intro stays
    exact ⟨(sound.apart stays.1.1).symm, stays.2⟩
  · intro room
    obtain ⟨rfl, room⟩ := room
    exact ⟨⟨rfl, rfl⟩, room⟩

theorem Remembers.not_enters {columns : List Field} {condition : Condition}
    (remembers : desk.Remembers which
      (desk.engine.memoKey columns condition) shown answer)
    {turn : Turn count} (asks : turn.Asks which columns condition shown)
    (other : Fin count) (place : UInt64) (text : String) :
    ¬desk.Enters turn other place text := by
  intro enters
  obtain ⟨asksOther, placed, unknown⟩ := enters
  obtain ⟨rfl, rfl, rfl, rfl⟩ := asks.unique asksOther
  rw [← placed, remembers] at unknown
  cases unknown

/-- An answer outlives another that enters exactly if the turn spares it and
asks its store. -/
theorem Remembers.take_iff_of_enters {digest : String → UInt64}
    {texts : String → Prop} (sound : desk.Sound digest texts)
    (remembers : desk.Remembers which key shown answer) {turn : Turn count}
    {other : Fin count} {place : UInt64} {text : String} {added : Answer}
    (enters : desk.Enters turn other place text)
    (entered : desk.take turn =
      { desk with
        engine := desk.engine.remember (desk.stores other).cabinet place
          text added }) :
    (desk.take turn).Remembers which key shown answer ↔
      desk.Spares which key shown turn ∧ other = which := by
  have ⟨_, _, unknown⟩ := enters
  rw [entered, remembers.remember_iff sound unknown]
  constructor
  · intro room
    obtain ⟨own, roomy, apart⟩ := room
    refine ⟨⟨by rw [entered], ?_, ?_⟩, own⟩
    · intro again _ _ entersAgain
      rw [(enters.unique entersAgain).1]
      exact roomy
    · intro again _ entersAgain
      exact absurd (enters.unique entersAgain).2.1.symm apart
  · intro spared
    obtain ⟨spares, own⟩ := spared
    refine ⟨own, spares.roomy enters, ?_⟩
    intro same
    subst same
    rw [own, (spares.alone enters).2, remembers] at unknown
    cases unknown

/-- An answer outlives a turn exactly if the turn spares it and asks no other
store. -/
theorem Remembers.take_iff {digest : String → UInt64} {texts : String → Prop}
    (sound : desk.Sound digest texts) (single : desk.engine.OfOneState)
    (remembers : desk.Remembers which key shown answer) (turn : Turn count) :
    (desk.take turn).Remembers which key shown answer ↔
      desk.Spares which key shown turn ∧
        ∀ other columns condition text,
          turn.Asks other columns condition text → other = which := by
  rcases desk.take_cases turn with
    ⟨unasked, same⟩ |
    ⟨asked, columns, condition, text, found, asks, again, same⟩ |
    ⟨asked, place, text, added, enters, entered⟩
  · have quiet : ∀ other place text, ¬desk.Enters turn other place text := by
      intro other place text enters
      obtain ⟨asks, _, _⟩ := enters
      exact unasked _ _ _ _ asks
    rw [remembers.take_iff_of_unasked same]
    constructor
    · intro still
      refine ⟨.of_quiet quiet still key shown, ?_⟩
      intro other columns condition text asks
      exact absurd asks (unasked _ _ _ _)
    · intro spared
      exact spared.1.still
  · rw [same]
    constructor
    · intro _
      refine ⟨.of_quiet (again.not_enters asks) (by rw [same]) key shown, ?_⟩
      intro other _ _ _ asksOther
      rw [(asks.unique asksOther).1]
      exact remembers.same_store sound single again
    · intro _
      exact remembers
  · have ⟨asks, _, _⟩ := enters
    rw [remembers.take_iff_of_enters sound enters entered]
    constructor
    · intro spared
      refine ⟨spared.1, ?_⟩
      intro other _ _ _ asksOther
      rw [(asks.unique asksOther).1]
      exact spared.2
    · intro spared
      exact ⟨spared.1, spared.2 _ _ _ _ asks⟩

/-- An answer outlives a row of turns exactly if each spares it and none asks
another store. -/
theorem Remembers.throughout_iff {digest : String → UInt64}
    (sound : desk.Sound digest fun _ => True)
    (single : desk.engine.OfOneState)
    (remembers : desk.Remembers which key shown answer)
    (turns : List (Turn count)) :
    desk.Throughout
        (fun desk turn => (desk.take turn).Remembers which key shown answer)
        turns ↔
      desk.Throughout (fun desk turn => desk.Spares which key shown turn)
          turns ∧
        ∀ turn ∈ turns, ∀ other columns condition text,
          turn.Asks other columns condition text → other = which := by
  induction turns generalizing desk with
  | nil => simp [Throughout]
  | cons turn turns ih =>
      have step := remembers.take_iff sound single turn
      have next := fun stays => ih (sound.foldl_take_any [turn])
        (ofOneState_take single turn) stays
      simp only [Throughout, List.forall_mem_cons]
      constructor
      · intro stays
        obtain ⟨spares, only⟩ := step.mp stays.1
        obtain ⟨later, onlyLater⟩ := (next stays.1).mp stays.2
        exact ⟨⟨spares, later⟩, only, onlyLater⟩
      · intro spared
        obtain ⟨⟨spares, later⟩, only, onlyLater⟩ := spared
        have stays := step.mpr ⟨spares, only⟩
        exact ⟨stays, (next stays).mpr ⟨later, onlyLater⟩⟩

theorem exists_remembers_take (desk : Desk count) (which : Fin count)
    {text : String} {columns : List Field} {condition : Condition}
    (reads : Statement.read text = .ok (.select columns condition shown)) :
    ∃ answer, desk.answer which text = .ok answer ∧
      (desk.take (.statement which text)).Remembers which
        (desk.engine.memoKey columns condition) shown answer := by
  rw [Desk.answer, Engine.execute_select _ _ reads, take_select _ _ reads]
  simp only [Remembers, Engine.runReading]
  cases found : desk.engine.remembered? (desk.stores which).cabinet
      (desk.engine.memoKey columns condition) shown with
  | some answer => exact ⟨answer, rfl, found⟩
  | none => exact ⟨_, rfl, Engine.remembered?_remember _ _ _ _ _⟩

end Desk

/-- Answers are remembered for each store by itself: once a select has been
answered, its answer stays as long as all turns spare it, whatever is asked of
other stores. -/
def RemembersEachStore (digest : String → UInt64) : Prop :=
  ∀ (count : Nat) (stores : Fin count → Store),
    Function.Injective (fun which => (stores which).cabinet.serial) →
    ∀ (earlier later : List (Turn count)) (which : Fin count) (text : String)
      (columns : List Field) (condition : Condition) (shown : String),
      Statement.read text = .ok (.select columns condition shown) →
      let before := earlier.foldl Desk.take ⟨.fresh digest, stores⟩
      let desk := before.take (.statement which text)
      let key := (Engine.fresh digest).memoKey columns condition
      ∀ answer, before.answer which text = .ok answer →
      desk.Throughout (fun desk turn => desk.Spares which key shown turn)
        later →
      desk.Throughout
        (fun desk turn => (desk.take turn).Remembers which key shown answer)
        later

/-- Once a select has been answered, its answer is in the memo.  It stays
there exactly as long as its store keeps its revision, the memo is not cleared
for being full, no other select enters at its place, and no other store is
asked for anything. -/
theorem remembered_iff_only_asked (digest : String → UInt64) {count : Nat}
    {stores : Fin count → Store}
    (apart : Function.Injective fun which => (stores which).cabinet.serial)
    (earlier later : List (Turn count)) (which : Fin count) {text : String}
    {columns : List Field} {condition : Condition} {shown : String}
    (reads : Statement.read text = .ok (.select columns condition shown)) :
    let before := earlier.foldl Desk.take ⟨.fresh digest, stores⟩
    let desk := before.take (.statement which text)
    let key := (Engine.fresh digest).memoKey columns condition
    ∃ answer, before.answer which text = .ok answer ∧
      desk.Remembers which key shown answer ∧
      (desk.Throughout
          (fun desk turn => (desk.take turn).Remembers which key shown answer)
          later ↔
        desk.Throughout (fun desk turn => desk.Spares which key shown turn)
            later ∧
          ∀ turn ∈ later, ∀ other columns condition text,
            turn.Asks other columns condition text → other = which) := by
  intro before desk key
  have sound : before.Sound digest fun _ => True :=
    (Desk.Sound.fresh digest _ apart).foldl_take_any earlier
  have place : before.engine.memoKey columns condition = key := by
    simp [key, Engine.memoKey, Engine.fresh, sound.digest]
  have single : desk.engine.OfOneState :=
    Desk.ofOneState_take (Desk.ofOneState_foldl_take digest stores earlier) _
  obtain ⟨answer, answered, remembers⟩ :=
    before.exists_remembers_take which reads
  rw [place] at remembers
  refine ⟨answer, answered, remembers, ?_⟩
  exact remembers.throughout_iff
    (sound.foldl_take_any [.statement which text]) single later

/-- Two empty cabinets. -/
def emptyPair : Fin 2 → Store := fun which =>
  .memory (.empty .acceptAll which)

theorem emptyPair_apart :
    Function.Injective fun which => (emptyPair which).cabinet.serial := by
  intro left right same
  exact Fin.ext same

theorem read_selectId :
    Statement.read "select id" = .ok (.select [.id] none "select id") := by
  decide +kernel

theorem read_selectFirstName :
    Statement.read "select firstname" =
      .ok (.select [.firstName] none "select firstname") := by
  decide +kernel

/-- An answer outlives a change of another store, but not the first select on
it. -/
theorem remembered_until_other_asked :
    let earlier : List (Turn 2) := [.change 0 (.create { id := 1 } false)]
    let later : List (Turn 2) :=
      [.change 1 (.create { id := 1 } false), .statement 1 "select firstname"]
    let before := earlier.foldl Desk.take ⟨.fresh Fingerprint.ofText, emptyPair⟩
    let key := (Engine.fresh Fingerprint.ofText).memoKey [.id] none
    Function.Injective (fun which => (emptyPair which).cabinet.serial) ∧
      Statement.read "select id" = .ok (.select [.id] none "select id") ∧
      ∃ answer, before.answer 0 "select id" = .ok answer ∧
        ¬(before.take (.statement 0 "select id")).Throughout
          (fun desk turn =>
            (desk.take turn).Remembers 0 key "select id" answer) later := by
  intro earlier later before key
  refine ⟨emptyPair_apart, read_selectId, ?_⟩
  obtain ⟨answer, answered, _, stays⟩ := remembered_iff_only_asked
    Fingerprint.ofText emptyPair_apart earlier later 0 read_selectId
  refine ⟨answer, answered, ?_⟩
  intro throughout
  have only := (stays.mp throughout).2 _ (List.mem_cons_of_mem _
    (List.mem_singleton_self _)) 1 _ _ _ (.select read_selectFirstName)
  exact absurd only (by decide)

/-- Two empty cabinets, the first of which has been asked for its ids. -/
def askedPair : Desk 2 :=
  Desk.take ⟨.fresh Fingerprint.ofText, emptyPair⟩
    (.statement 0 "select id")

/-- A select on the second of two stores takes the answer of the first out of
the memo, although it spares it. -/
theorem forgotten_for_other_store :
    let key := (Engine.fresh Fingerprint.ofText).memoKey [.id] none
    let turn : Turn 2 := .statement 1 "select firstname"
    askedPair.Remembers 0 key "select id" { columns := ["id"] } ∧
      askedPair.Spares 0 key "select id" turn ∧
      (askedPair.take turn).engine.remembered? (emptyPair 0).cabinet key
        "select id" = none ∧
      (askedPair.take turn).engine.memo.length = 1 ∧
      ¬RemembersEachStore Fingerprint.ofText := by
  intro key turn
  have asks : turn.Asks 1 [.firstName] none "select firstname" :=
    .select read_selectFirstName
  have remembers :
      askedPair.Remembers 0 key "select id" { columns := ["id"] } := by
    unfold Desk.Remembers
    decide +kernel
  have spares : askedPair.Spares 0 key "select id" turn := by
    constructor
    · rw [askedPair.take_of_asks asks]
    · intro other place text enters
      obtain ⟨asksOther, _, _⟩ := enters
      obtain ⟨rfl, _, _, _⟩ := asks.unique asksOther
      decide +kernel
    · intro other text enters
      obtain ⟨asksOther, placed, _⟩ := enters
      obtain ⟨_, rfl, rfl, _⟩ := asks.unique asksOther
      exact absurd placed (by decide +kernel)
  have forgotten : (askedPair.take turn).engine.remembered?
      (emptyPair 0).cabinet key "select id" = none := by
    decide +kernel
  refine ⟨remembers, spares, forgotten, by decide +kernel, ?_⟩
  intro each
  have answered : Desk.answer ⟨.fresh Fingerprint.ofText, emptyPair⟩ 0
      "select id" = .ok { columns := ["id"] } := by
    rw [Desk.answer, Engine.execute_select _ _ read_selectId]
    rfl
  have stays : (askedPair.take turn).Remembers 0 key "select id"
      { columns := ["id"] } :=
    (each 2 emptyPair emptyPair_apart [] [turn] 0 "select id" [.id] none
      "select id" read_selectId _ answered ⟨spares, trivial⟩).1
  have kept : (askedPair.take turn).stores = emptyPair := by
    rw [askedPair.take_of_asks asks]
    exact congrArg Desk.stores (Desk.take_select _ 0 read_selectId)
  rw [Desk.Remembers, kept, forgotten] at stays
  cases stays

end Cardfile
