/- GID: Loopx/WorkItems/ReplanLanes
   generality: I
   source: loopx/control_plane/work_items/replan_history.ts
   digest: A lane's trigger does not see other lanes, neutral rows, repetitions or the past. -/

import Loopx.WorkItems.ReplanHistory
import Mathlib.Logic.Relation

set_option autoImplicit false
set_option relaxedAutoImplicit false

namespace Loopx.WorkItems

open Loopx.Lib.Fallible
open Loopx.Lib.FreshKeys
open Loopx.Todos (Fields)

/-! ## The window -/

section Window

variable (neutral : List String) (agent : Option String)

/-- The row belongs to the lane, or to no lane in particular. -/
def inLane (run : Run) : Bool := ¬(agent.isSome ∧ run.agent.isSome ∧ run.agent ≠ agent)

/-- The window: the rows of the lane, cut at the first acknowledgement, without neutral ones. -/
theorem windowRows_eq (l : List Run) :
    windowRows neutral agent l =
      ((l.filter (inLane agent)).takeWhile fun run => !run.ack).filter
        fun run => !neutral.contains run.classification := by
  induction l with
  | nil => rfl
  | cons run l ih =>
    rw [windowRows]
    by_cases other : agent.isSome = true ∧ run.agent.isSome = true ∧ run.agent ≠ agent
    · have out : ¬inLane agent run = true := fun inside => of_decide_eq_true inside other
      rw [if_pos other, List.filter_cons_of_neg out, ih]
    · have inside : inLane agent run = true := decide_eq_true other
      rw [if_neg other, List.filter_cons_of_pos inside]
      by_cases acked : run.ack = true
      · rw [if_pos acked, List.takeWhile_cons_of_neg (by simp [acked])]
        rfl
      · rw [if_neg acked, List.takeWhile_cons_of_pos (by simpa using acked)]
        by_cases dropped : neutral.contains run.classification = true
        · rw [if_pos dropped, List.filter_cons_of_neg (by rw [dropped]; exact Bool.false_ne_true),
            ih]
        · rw [if_neg dropped, List.filter_cons_of_pos (by simpa using dropped), ih]

theorem windowRows_peer {x : Run} (out : inLane agent x = false) (front back : List Run) :
    windowRows neutral agent (front ++ x :: back) = windowRows neutral agent (front ++ back) := by
  rw [windowRows_eq, windowRows_eq, List.filter_append, List.filter_append,
    List.filter_cons_of_neg (by rw [out]; exact Bool.false_ne_true)]

theorem windowRows_neutral {x : Run} (plain : x.ack = false)
    (dropped : neutral.contains x.classification = true) (front back : List Run) :
    windowRows neutral agent (front ++ x :: back) = windowRows neutral agent (front ++ back) := by
  induction front with
  | nil =>
    rw [List.nil_append, List.nil_append, windowRows]
    split
    · rfl
    · rw [plain, if_neg Bool.false_ne_true]
  | cons run front ih =>
    rw [List.cons_append, List.cons_append, windowRows, windowRows, ih]

theorem windowRows_behind {x : Run} (acked : x.ack = true) (inside : inLane agent x = true)
    (front back back' : List Run) :
    windowRows neutral agent (front ++ x :: back) =
      windowRows neutral agent (front ++ x :: back') := by
  induction front with
  | nil =>
    have own : ¬(agent.isSome = true ∧ x.agent.isSome = true ∧ x.agent ≠ agent) :=
      of_decide_eq_true inside
    rw [List.nil_append, List.nil_append, windowRows, windowRows, if_neg own, if_neg own,
      if_pos acked, if_pos acked]
  | cons run front ih =>
    rw [List.cons_append, List.cons_append, windowRows, windowRows, ih]

end Window

/-- The second list repeats a row of the first further back. -/
inductive Repeats {A : Type} (a : A) : List A → List A → Prop where
  | same (l : List A) : Repeats a l l
  | again (front middle back : List A) :
      Repeats a (front ++ a :: middle ++ back) (front ++ a :: middle ++ a :: back)

section Repeats

variable {A : Type} {a : A} {l l' : List A}

theorem Repeats.filter (p : A → Bool) (h : Repeats a l l') :
    Repeats a (l.filter p) (l'.filter p) := by
  cases h with
  | same => exact .same _
  | again front middle back =>
    by_cases kept : p a = true
    · simp only [List.filter_append, List.filter_cons_of_pos kept]
      exact .again _ _ _
    · simp only [List.filter_append, List.filter_cons_of_neg kept]
      exact .same _

theorem Repeats.takeWhile (p : A → Bool) (h : Repeats a l l') :
    Repeats a (l.takeWhile p) (l'.takeWhile p) := by
  cases h with
  | same => exact .same _
  | again front middle back =>
    by_cases all : ∀ b ∈ front ++ a :: middle, p b = true
    · rw [List.takeWhile_append_of_pos all, List.takeWhile_append_of_pos all,
        List.takeWhile_cons_of_pos (all a (by simp))]
      exact .again _ _ _
    · have cut : ∀ more, (front ++ a :: middle ++ more).takeWhile p =
          (front ++ a :: middle).takeWhile p := by
        intro more
        generalize front ++ a :: middle = first at all ⊢
        rw [List.takeWhile_append, if_neg]
        intro whole
        exact all (List.takeWhile_eq_self_iff.1
          ((List.takeWhile_sublist p).eq_of_length whole))
      rw [cut, cut]
      exact .same _

theorem Repeats.mem_iff (h : Repeats a l l') (b : A) : b ∈ l ↔ b ∈ l' := by
  cases h with
  | same => exact Iff.rfl
  | again front middle back =>
    simp only [List.mem_append, List.mem_cons]
    tauto

theorem Repeats.find? (p : A → Bool) (h : Repeats a l l') : l.find? p = l'.find? p := by
  cases h with
  | same => rfl
  | again front middle back =>
    have mem : a ∈ front ++ a :: middle := by simp
    generalize front ++ a :: middle = first at mem ⊢
    rw [List.find?_append, List.find?_append]
    by_cases found : p a = true
    · have some_first : (first.find? p).isSome := List.find?_isSome.2 ⟨a, mem, found⟩
      obtain ⟨b, hb⟩ := Option.isSome_iff_exists.1 some_first
      rw [hb, Option.some_or, Option.some_or]
    · rw [List.find?_cons_of_neg found]

end Repeats

theorem sole_congr {l l' : List (Option String)} (h : ∀ v, v ∈ l ↔ v ∈ l') : sole l = sole l' := by
  have perm : l.reduceOption.dedup.Perm l'.reduceOption.dedup := by
    rw [List.perm_ext_iff_of_nodup (List.nodup_dedup _) (List.nodup_dedup _)]
    intro v
    rw [List.mem_dedup, List.mem_dedup, List.reduceOption_mem_iff, List.reduceOption_mem_iff, h]
  unfold sole
  rcases hl : l.reduceOption.dedup with _ | ⟨v, _ | ⟨w, rest⟩⟩
  · rw [hl] at perm
    rw [List.nil_perm.1 perm]
  · rw [hl] at perm
    rw [List.singleton_perm.1 perm]
  · have long := perm.length_eq
    rw [hl] at long
    rcases hl' : l'.reduceOption.dedup with _ | ⟨v', _ | ⟨w', rest'⟩⟩
    · rfl
    · rw [hl'] at long
      simp at long
    · rfl

theorem Repeats.sole_map {x : Run} {l l' : List Run} (h : Repeats x l l')
    (f : Run → Option String) : sole (l.map f) = sole (l'.map f) := by
  refine sole_congr fun v => ?_
  rw [List.mem_map, List.mem_map]
  exact exists_congr fun b => and_congr_left fun _ => h.mem_iff b

/-- Repeating a row with a turn that counts leaves the distinct turns. -/
theorem Repeats.distinctTurns {x : Run} {l l' : List Run} (h : Repeats x l l')
    (turn : x.turn.isSome = true) (counts : Run → Bool) (counting : counts x = true) :
    distinctTurns counts l = distinctTurns counts l' := by
  have lane := h.sole_map (·.agent)
  rw [WorkItems.distinctTurns, WorkItems.distinctTurns, lane]
  cases h with
  | same => rfl
  | again front middle back =>
    obtain ⟨t, ht⟩ := Option.isSome_iff_exists.1 turn
    have keyed : ∀ lane, ∃ k, turnKey lane x = some k := by
      intro lane
      rw [turnKey, ht]
      exact ⟨_, rfl⟩
    obtain ⟨k, hk⟩ := keyed (sole ((front ++ x :: middle ++ x :: back).map (·.agent)))
    exact (fresh_repeat _ counts hk counting [] front middle back).symm

theorem Repeats.windowRows {x : Run} {l l' : List Run} (h : Repeats x l l')
    (neutral : List String) (agent : Option String) :
    Repeats x (windowRows neutral agent l) (windowRows neutral agent l') := by
  rw [windowRows_eq, windowRows_eq]
  exact ((h.filter _).takeWhile _).filter _

/-! ## The triggers -/

section Triggers

variable (host : ReplanHost) (request : ReplanRequest) {x : Run} {l l' : List Run}

theorem progressTrigger_repeats (h : Repeats x l l') (turn : x.turn.isSome = true)
    (typed : x.typed = true) : progressTrigger request l = progressTrigger request l' := by
  have turns := h.distinctTurns turn Run.typed typed
  unfold progressTrigger
  rw [turns]

theorem monitorTrigger_repeats (h : Repeats x l l') (turn : x.turn.isSome = true) :
    monitorTrigger host request l = monitorTrigger host request l' := by
  have turns := h.distinctTurns turn (fun _ => true) rfl
  unfold monitorTrigger
  rw [turns]

theorem periodicTrigger_repeats (h : Repeats x l l') (turn : x.turn.isSome = true)
    (qualified : Option (List String)) :
    periodicTrigger host request l qualified = periodicTrigger host request l' qualified := by
  have turns := (h.filter fun run => isQualified qualified run && isWork run).distinctTurns turn
    (fun _ => true) rfl
  unfold periodicTrigger
  rw [turns, h.find? isWork, h.sole_map (·.agent)]

end Triggers

/-- One row put into the history that a lane must not see, or a change of what lies behind its
latest acknowledgement. -/
inductive HistoryEdit (request : ReplanRequest) : List Run → List Run → Prop where
  | peer {x : Run} (front back : List Run) (other : x.agent.isSome = true)
      (notOwn : x.agent ≠ request.agent) : HistoryEdit request (front ++ back) (front ++ x :: back)
  | neutral {x : Run} (front back : List Run) (plain : x.ack = false)
      (neutral : x.classification ∈ request.neutral) :
      HistoryEdit request (front ++ back) (front ++ x :: back)
  | behind {x : Run} (front back back' : List Run) (acked : x.ack = true)
      (own : x.agent = none ∨ x.agent = request.agent) :
      HistoryEdit request (front ++ x :: back) (front ++ x :: back')
  | again {x : Run} (front middle back : List Run) (turn : x.turn.isSome = true)
      (typed : x.typed = true) :
      HistoryEdit request (front ++ x :: middle ++ back) (front ++ x :: middle ++ x :: back)

/-- The operations that read the history of a lane. -/
def ReadsHistory (operation : ReplanOperation) : Prop :=
  operation = .all ∨ operation = .progress ∨ operation = .periodic

private theorem replanTrigger_congr (host : ReplanHost) {request : ReplanRequest}
    (reads : ReadsHistory request.operation) (qualified : Option (List String)) {runs : List Run}
    (progress : progressTrigger request (historyWindow request) =
      progressTrigger request (historyWindow { request with runs }))
    (monitor : monitorTrigger host request (historyWindow request) =
      monitorTrigger host request (historyWindow { request with runs }))
    (periodic : periodicTrigger host request (historyWindow request) qualified =
      periodicTrigger host request (historyWindow { request with runs }) qualified) :
    replanTrigger host request qualified = replanTrigger host { request with runs } qualified := by
  unfold replanTrigger
  rcases reads with all | progress' | periodic'
  · simp only [all, progress, monitor, periodic]
    rfl
  · simp only [progress', progress]
    rfl
  · simp only [periodic', periodic]
    rfl

/-- One edit leaves the trigger of a named lane. -/
theorem replanTrigger_edit (host : ReplanHost) {request : ReplanRequest}
    (named : request.agent.isSome = true) (reads : ReadsHistory request.operation)
    (qualified : Option (List String)) {runs : List Run}
    (edit : HistoryEdit request request.runs runs) :
    replanTrigger host request qualified = replanTrigger host { request with runs } qualified := by
  obtain ⟨agent, hagent⟩ := Option.isSome_iff_exists.1 named
  have lane : ∀ runs, historyLane { request with runs } = request.agent := by
    intro runs
    rw [historyLane]
    simp only [hagent, Option.some_or]
  have window : ∀ runs, historyWindow { request with runs } =
      windowRows request.neutral request.agent runs := by
    intro runs
    rw [historyWindow, lane]
  have own : historyWindow request = windowRows request.neutral request.agent request.runs :=
    window request.runs
  have same : historyWindow request = historyWindow { request with runs } →
      replanTrigger host request qualified =
        replanTrigger host { request with runs } qualified := by
    intro h
    exact replanTrigger_congr host reads qualified (by rw [h]) (by rw [h]) (by rw [h])
  generalize hrows : request.runs = old at edit own
  cases edit with
  | peer front back other notOwn =>
    refine same ?_
    rw [own, window]
    refine (windowRows_peer _ _ (decide_eq_false ?_) front back).symm
    exact not_not_intro ⟨named, other, notOwn⟩
  | neutral front back plain dropped =>
    refine same ?_
    rw [own, window]
    exact (windowRows_neutral _ _ plain (by simpa using dropped) front back).symm
  | @behind y front back back' acked mine =>
    refine same ?_
    rw [own, window]
    refine windowRows_behind _ _ acked (decide_eq_true ?_) front back back'
    rintro ⟨-, other, notOwn⟩
    rcases mine with unnamed | mine
    · rw [unnamed] at other
      cases other
    · exact notOwn mine
  | @again y front middle back turn typed =>
    have h : Repeats y (historyWindow request)
        (historyWindow { request with runs := front ++ y :: middle ++ y :: back }) := by
      rw [own, window]
      exact (Repeats.again front middle back).windowRows _ _
    exact replanTrigger_congr host reads qualified (progressTrigger_repeats request h turn typed)
      (monitorTrigger_repeats host request h turn)
      (periodicTrigger_repeats host request h turn qualified)

/-- Any edits, done and undone in any order, leave the trigger of a named lane. -/
theorem replanTrigger_edits (host : ReplanHost) {request : ReplanRequest}
    (named : request.agent.isSome = true) (reads : ReadsHistory request.operation)
    (qualified : Option (List String)) {runs runs' : List Run}
    (edits : Relation.EqvGen (HistoryEdit request) runs runs') :
    replanTrigger host { request with runs } qualified =
      replanTrigger host { request with runs := runs' } qualified := by
  induction edits with
  | rel runs runs' edit =>
    have step : HistoryEdit { request with runs } runs runs' := by
      cases edit with
      | peer front back other notOwn => exact .peer front back other notOwn
      | neutral front back plain dropped => exact .neutral front back plain dropped
      | behind front back back' acked own => exact .behind front back back' acked own
      | again front middle back turn typed => exact .again front middle back turn typed
    exact @replanTrigger_edit host { request with runs } named reads qualified runs' step
  | refl => rfl
  | symm _ _ _ ih => exact ih.symm
  | trans _ _ _ _ _ first second => exact first.trans second

/-! ## The typed repetition -/

/-- The typed rows of distinct turns, latest first; rows without a turn stand for themselves. -/
def typedTurns (lane : Option String) (rows : List Run) : List Run :=
  fresh (turnKey lane) (fun _ => true) [] (rows.filter Run.typed)

/-- The latest typed rows of as many distinct turns as the threshold asks for share a fingerprint,
with an unchanged or blocked result, and no untyped row of another turn stands between them. -/
def TypedRepeat (request : ReplanRequest) (window : List Run) : Prop :=
  let lane := sole (window.map (·.agent))
  ∃ latest, latest <+: window ∧ (typedTurns lane latest).length = request.stall ∧
    (∀ front run back, latest = front ++ run :: back → run.typed = false →
      typedTurns lane front ≠ [] →
      ∃ key, turnKey lane run = some key ∧
        ∃ typed ∈ front, typed.typed = true ∧ turnKey lane typed = some key) ∧
    ∃ fingerprint, (∀ run ∈ typedTurns lane latest, run.fingerprint = some fingerprint) ∧
      ∃ first progress, (typedTurns lane latest).head? = some first ∧
        first.progress = some progress ∧
        (progress.result = .unchanged ∨ progress.result = .blocked)

private theorem observeProgress_eq (stall : Nat) (rows observed : List Run)
    (short : observed.length < stall) :
    observeProgress stall observed rows =
      (observed ++ ((if observed = [] then rows.dropWhile (fun run => !run.typed)
        else rows).takeWhile Run.typed)).take stall := by
  induction rows generalizing observed with
  | nil =>
    rw [observeProgress]
    simp [List.take_of_length_le short.le]
  | cons run rows ih =>
    rw [observeProgress]
    cases typed : run.typed with
    | false =>
      rw [if_pos (by rfl)]
      by_cases empty : observed = []
      · rw [if_pos empty, if_pos empty, ih observed short, if_pos empty, List.dropWhile_cons,
          if_pos (by rw [typed]; rfl)]
      · rw [if_neg empty, if_neg empty, List.takeWhile_cons, if_neg (by simp [typed]),
          List.append_nil, List.take_of_length_le short.le]
    | true =>
      have rest : (if observed = [] then (run :: rows).dropWhile (fun run => !run.typed)
          else run :: rows) = run :: rows := by
        split
        · rw [List.dropWhile_cons, if_neg (by simp [typed])]
        · rfl
      rw [if_neg (by simp), rest, List.takeWhile_cons, if_pos typed]
      by_cases full : stall ≤ (observed ++ [run]).length
      · rw [if_pos full]
        have exact_ : (observed ++ [run]).length = stall := by
          rw [List.length_append, List.length_singleton] at full ⊢
          omega
        rw [List.append_cons observed run (rows.takeWhile Run.typed),
          List.take_append_of_le_length exact_.ge,
          List.take_of_length_le exact_.le]
      · rw [if_neg full, ih _ (not_le.1 full), if_neg (by simp),
          List.append_cons observed run (rows.takeWhile Run.typed)]

private theorem fingerprint_of_sole {rows : List Run} (typed : ∀ run ∈ rows, run.typed = true)
    (h : (sole (rows.map Run.fingerprint)).isSome = true) :
    ∃ fingerprint, ∀ run ∈ rows, run.fingerprint = some fingerprint := by
  unfold sole at h
  split at h
  · rename_i value only
    refine ⟨value, fun run hrun => ?_⟩
    obtain ⟨progress, hprogress⟩ := Option.isSome_iff_exists.1 (typed run hrun)
    have own : run.fingerprint = some progress.fingerprint := by
      rw [Run.fingerprint, hprogress]
      rfl
    have mem : progress.fingerprint ∈ (rows.map Run.fingerprint).reduceOption.dedup := by
      rw [List.mem_dedup, List.reduceOption_mem_iff, ← own]
      exact List.mem_map_of_mem hrun
    rw [only, List.mem_singleton] at mem
    rw [own, mem]
  · cases h

/-- The rows in front of the first `stall` typed turns, and those turns. -/
private theorem observed_split {stall : Nat} {turns : List Run} (pos : 0 < stall)
    (enough : ¬(observeProgress stall [] turns).length < stall) :
    ∃ lead rest, turns = lead ++ observeProgress stall [] turns ++ rest ∧
      (∀ run ∈ lead, run.typed = false) ∧
      (∀ run ∈ observeProgress stall [] turns, run.typed = true) ∧
      (observeProgress stall [] turns).length = stall := by
  have eq := observeProgress_eq stall turns [] pos
  rw [if_pos rfl, List.nil_append] at eq
  have inside : observeProgress stall [] turns <+: turns.dropWhile fun run => !run.typed := by
    rw [eq]
    exact (List.take_prefix _ _).trans (List.takeWhile_prefix _)
  obtain ⟨rest, hrest⟩ := inside
  refine ⟨turns.takeWhile fun run => !run.typed, rest, ?_, fun run hrun => ?_,
    fun run hrun => ?_, ?_⟩
  · rw [List.append_assoc, hrest, List.takeWhile_append_dropWhile]
  · simpa using List.mem_takeWhile_imp hrun
  · rw [eq] at hrun
    exact List.mem_takeWhile_imp (List.mem_of_mem_take hrun)
  · have le : (observeProgress stall [] turns).length ≤ stall := by
      rw [eq]
      exact List.length_take_le _ _
    omega

/-- A typed-progress trigger rests on a typed repetition. -/
theorem progressTrigger_typedRepeat {request : ReplanRequest} {window : List Run}
    {trigger : Fields} (pos : 0 < request.stall)
    (h : progressTrigger request window = some trigger) : TypedRepeat request window := by
  unfold progressTrigger at h
  simp only at h
  split at h
  · cases h
  · rename_i enough
    split at h
    · rename_i first progress last hfirst hprogress hlast
      obtain ⟨⟨shared, result⟩, -⟩ := Option.ite_none_right_eq_some.1 h
      obtain ⟨lead, rest, split, untyped, typed, length⟩ := observed_split pos enough
      generalize hobs : observeProgress request.stall [] (distinctTurns Run.typed window) = observed
        at hfirst hprogress hlast shared split typed length
      obtain ⟨latest, inside, hlatest⟩ := exists_prefix_of_fresh _ _ split
      have lane : typedTurns (sole (window.map (·.agent))) latest = observed := by
        rw [typedTurns, ← filter_fresh, hlatest, List.filter_append,
          List.filter_eq_nil_iff.2 fun run hrun => by
            rw [untyped run hrun]
            exact Bool.false_ne_true,
          List.filter_eq_self.2 typed]
        rfl
      obtain ⟨fingerprint, hfingerprint⟩ := fingerprint_of_sole typed shared
      refine ⟨latest, inside, lane.symm ▸ length, ?_, fingerprint, lane.symm ▸ hfingerprint, first,
        progress, lane.symm ▸ hfirst, ?_, ?_⟩
      · intro front run back whole bare some_typed
        by_contra counted'
        have fresh_run : isFresh (turnKey (sole (window.map (·.agent))))
            (counted (turnKey (sole (window.map (·.agent)))) Run.typed [] front) run = true := by
          unfold isFresh
          split
          · rename_i key hkey
            refine decide_eq_true fun stale => counted' ?_
            rcases mem_of_counted _ _ stale with old | ⟨seen, mem, same, counts⟩
            · cases old
            · exact ⟨key, hkey, seen, mem, counts, same⟩
          · rfl
        rw [whole, fresh_append, fresh, if_pos fresh_run] at hlatest
        have front_typed : ∃ a ∈ fresh (turnKey (sole (window.map (·.agent)))) Run.typed [] front,
            a.typed = true := by
          rw [typedTurns, ← filter_fresh] at some_typed
          obtain ⟨a, ha⟩ := List.exists_mem_of_ne_nil _ some_typed
          exact ⟨a, (List.mem_filter.1 ha).1, (List.mem_filter.1 ha).2⟩
        obtain ⟨a, ha, hatyped⟩ := front_typed
        -- An untyped row behind a typed one would stand among the observations.
        rcases List.append_eq_append_iff.1 hlatest with ⟨more, hlead, -⟩ | ⟨more, hfront, hback⟩
        · have inLead : a ∈ lead := by rw [hlead]; exact List.mem_append_left _ ha
          rw [untyped a inLead] at hatyped
          cases hatyped
        · have inObserved : run ∈ observed := by
            rw [hback]
            simp
          rw [typed run inObserved] at bare
          cases bare
      · rw [hfirst] at hprogress
        exact hprogress
      · simpa using result
    · cases h

private theorem integer_ge {value : Option Json} {label : String} {minimum i : Int}
    (h : integer value label minimum = .ok i) : minimum ≤ i := by
  unfold integer at h
  split at h
  · split at h
    · split at h
      · cases h
      · rename_i enough
        obtain rfl := Except.ok.inj h
        exact not_lt.1 enough
    · cases h
  · cases h

/-- A decoded request asks for at least two turns. -/
theorem two_le_stall {value : Json} {request : ReplanRequest}
    (h : decodeReplan value = .ok request) : 2 ≤ request.stall := by
  unfold decodeReplan at h
  obtain ⟨_, _, h⟩ := bind_eq_ok.1 h
  obtain ⟨_, _, h⟩ := bind_eq_ok.1 h
  obtain ⟨_, _, h⟩ := bind_eq_ok.1 h
  obtain ⟨_, _, h⟩ := bind_eq_ok.1 h
  obtain ⟨_, _, h⟩ := bind_eq_ok.1 h
  obtain ⟨_, _, h⟩ := bind_eq_ok.1 h
  obtain ⟨_, _, h⟩ := bind_eq_ok.1 h
  obtain ⟨_, _, h⟩ := bind_eq_ok.1 h
  obtain ⟨_, _, h⟩ := bind_eq_ok.1 h
  obtain ⟨_, _, h⟩ := bind_eq_ok.1 h
  obtain ⟨stall, hstall, h⟩ := bind_eq_ok.1 h
  obtain ⟨_, _, h⟩ := bind_eq_ok.1 h
  obtain ⟨_, _, h⟩ := bind_eq_ok.1 h
  obtain ⟨_, _, h⟩ := bind_eq_ok.1 h
  obtain ⟨_, _, h⟩ := bind_eq_ok.1 h
  obtain ⟨_, _, h⟩ := bind_eq_ok.1 h
  obtain ⟨_, _, h⟩ := bind_eq_ok.1 h
  obtain ⟨_, _, h⟩ := bind_eq_ok.1 h
  obtain ⟨_, _, h⟩ := bind_eq_ok.1 h
  obtain ⟨_, _, h⟩ := bind_eq_ok.1 h
  obtain rfl := Except.ok.inj h
  have enough := integer_ge hstall
  change 2 ≤ stall.toNat
  omega

/-- The kind of a typed-progress trigger. -/
def typedKind : Option Json := some (.string "typed_progress_repeat")

private theorem periodicTrigger_kind {host : ReplanHost} {request : ReplanRequest}
    {runs : List Run} {qualified : Option (List String)} {trigger : Fields}
    (h : periodicTrigger host request runs qualified = some trigger) :
    trigger.lookup "kind" ≠ typedKind := by
  unfold periodicTrigger at h
  simp only at h
  split at h
  · cases h
  · split at h
    · cases h
    · obtain rfl := Option.some.inj h
      exact fun same => absurd (Json.string.inj (Option.some.inj same)) (by decide)

private theorem monitorTrigger_kind {host : ReplanHost} {request : ReplanRequest}
    {runs : List Run} {trigger : Fields}
    (h : monitorTrigger host request runs = .ok (some trigger)) :
    trigger.lookup "kind" ≠ typedKind := by
  unfold monitorTrigger at h
  simp only at h
  split at h
  · cases h
  · split at h
    · obtain ⟨future, -, h⟩ := bind_eq_ok.1 h
      split at h
      · cases h
      · split at h
        · obtain rfl := Option.some.inj (Except.ok.inj h)
          exact fun same => absurd (Json.string.inj (Option.some.inj same)) (by decide)
        · cases h
    · split at h
      · split at h
        · cases h
        · obtain rfl := Option.some.inj (Except.ok.inj h)
          exact fun same => absurd (Json.string.inj (Option.some.inj same)) (by decide)
      · cases h

/-- A typed trigger is the progress trigger. -/
private theorem progressTrigger_of_kind {host : ReplanHost} {request : ReplanRequest}
    {qualified : Option (List String)} {trigger : Fields}
    (reads : ReadsHistory request.operation)
    (h : replanTrigger host request qualified = .ok (some trigger))
    (typed : trigger.lookup "kind" = typedKind) :
    progressTrigger request (historyWindow request) = some trigger := by
  unfold replanTrigger at h
  rcases reads with all | progress | periodic
  · simp only [all] at h
    split at h
    · rename_i found
      rw [found]
      exact Except.ok.inj h
    · obtain ⟨monitor, hmonitor, h⟩ := bind_eq_ok.1 h
      split at h
      · obtain rfl := Option.some.inj (Except.ok.inj h)
        exact absurd typed (monitorTrigger_kind hmonitor)
      · exact absurd typed (periodicTrigger_kind (Except.ok.inj h))
  · simp only [progress] at h
    exact Except.ok.inj h
  · simp only [periodic] at h
    exact absurd typed (periodicTrigger_kind (Except.ok.inj h))

/-- The result object of a trigger. -/
def historyResult (trigger : Option Fields) : Json :=
  .object [("schema_version", .string "replan_history_result_v0"),
    ("trigger", (trigger.map Json.object).getD .null)]

/-- The trigger of a named lane is the same for every history that differs in rows of other lanes,
in neutral rows, in exact repetitions further back and in what lies behind the lane's latest
acknowledgement; and a typed trigger rests on the latest typed rows of distinct turns. -/
theorem replan_history_insensitive (host : ReplanHost) (qualified : Option (List String))
    {value : Json} {request : ReplanRequest} (decoded : decodeReplan value = .ok request)
    (named : request.agent.isSome = true) (reads : ReadsHistory request.operation) :
    (∀ value' runs, decodeReplan value' = .ok { request with runs } →
      Relation.EqvGen (HistoryEdit request) request.runs runs →
      projectReplanHistory host value' qualified = projectReplanHistory host value qualified) ∧
    (∀ trigger, projectReplanHistory host value qualified = .ok (historyResult (some trigger)) →
      trigger.lookup "kind" = typedKind → TypedRepeat request (historyWindow request)) := by
  constructor
  · intro value' runs decoded' edits
    have same := replanTrigger_edits host named reads qualified edits
    rw [projectReplanHistory, projectReplanHistory, decoded, decoded', ok_bind, ok_bind]
    rw [← same]
  · intro trigger h typed
    rw [projectReplanHistory, decoded, ok_bind] at h
    obtain ⟨found, hfound, h⟩ := bind_eq_ok.1 h
    have fields := Json.object.inj (Except.ok.inj h)
    have shown : (found.map Json.object).getD .null = Json.object trigger :=
      (Prod.mk.inj (List.cons.inj (List.cons.inj fields).2).1).2
    cases found with
    | none => cases shown
    | some found =>
      obtain rfl : found = trigger := Json.object.inj shown
      have pos := two_le_stall decoded
      exact progressTrigger_typedRepeat (by omega) (progressTrigger_of_kind reads hfound typed)

private def sampleRow (agent : String) : Json :=
  .object [("monitor", .object []), ("agent_id", .string agent), ("classification", .string "w"),
    ("generated_at", .string "t"), ("observed_at", .null), ("accepted_ack", .bool false),
    ("progress", .null)]

private def sampleRun (agent : String) : Run :=
  { retryFacts := ⟨none, none, none, some .null, none⟩, agent := some agent, publicAgent := none
    monitorAgent := none, classification := "w", generatedAt := "t", observedAt := none
    turn := none, ack := false, progress := none
    monitor := ⟨none, none, none, none, none, none⟩ }

private def sampleValue (agents : List String) : Json :=
  .object [("schema_version", .string "replan_history_request_v0"),
    ("todos", .object [("resume", .null), ("monitors", .array []), ("advancements", .array [])]),
    ("operation", .string "periodic"), ("agent_id", .string "a"),
    ("neutral_classifications", .array []), ("stall_threshold", .number (.ofNat 2)),
    ("periodic_threshold", .number (.ofNat 1)), ("monitor_threshold", .number (.ofNat 1)),
    ("streak_threshold", .number (.ofNat 1)), ("monitor_schema", .string "m"),
    ("runs", .array (agents.map sampleRow))]

private def sampleRequest (agents : List String) : ReplanRequest :=
  { retryObservedAt := none, operation := .periodic, observedAt := none, agent := some "a"
    monitorAgent := none, runs := agents.map sampleRun, neutral := ["replan_noop", "repair_noop"]
    stall := 2, periodic := 1, stride := "off", monitor := 1, streak := 1, monitorSchema := "m"
    todos := ⟨[], [], none⟩ }

private theorem decode_sample : decodeReplan (sampleValue ["a"]) = .ok (sampleRequest ["a"]) := rfl

private theorem decode_sample_peer :
    decodeReplan (sampleValue ["b", "a"]) = .ok (sampleRequest ["b", "a"]) := rfl

private def sampleHost : ReplanHost := ⟨fun _ => .ok [], fun _ => none, fun cs => cs⟩

/-- A row of another lane in front of one's own. -/
theorem replan_history_insensitive_peer :
    projectReplanHistory sampleHost (sampleValue ["b", "a"]) none =
      projectReplanHistory sampleHost (sampleValue ["a"]) none :=
  (replan_history_insensitive sampleHost none decode_sample rfl (.inr (.inr rfl))).1 _ _
    decode_sample_peer (.rel _ _ (.peer [] [sampleRun "a"] rfl (by decide)))

end Loopx.WorkItems
