import PqcScan.Agent.Report
import PqcScan.Library.Transition

/-!
# No dumped bundle is lost

Everything the agent does to its spool is an operation of an outbox that
conserves its entries, provided that writes, renames and removals succeed and
drawn names do not repeat.  So a bundle that one call left acknowledged,
spooled, put aside or refused stays so at every later point.
-/

namespace PqcScan
namespace Agent

open Library Python Store Program

/-! ## What is assumed and what is kept -/

/-- Writes, renames and removals in the spool succeed. -/
structure Reliable (site : Environment δ ε) : Prop where
  writes : ∀ env name, (site.perform env (.writeSpool name)).2 = none
  renames : ∀ env name, (site.perform env (.quarantine name)).2 = none
  removes : ∀ env name, (site.perform env (.unlinkSpool name)).2 = none

/-- The names of the files spooled so far. -/
def spooledNames (trace : List (Point δ ε)) : List SpoolName :=
  trace.filterMap fun point =>
    match point.action with
    | .spooled name => some name
    | _ => none

/-- No name was drawn twice, nor one that was in use at the start. -/
def NamesDistinct (used : List SpoolName) (world : World δ ε) : Prop :=
  (used ++ spooledNames world.trace).Nodup

/-- A point records the spool, conserves it, and is the end of a flush without
kept files only when the spool is empty. -/
structure Records (before : Spool δ) (point : Point δ ε) (after : Spool δ) :
    Prop where
  snapshot : after = point.box
  conserves : before.Conserves after
  drained : ∀ tally, point.action = .flushed tally → tally.kept = 0 →
    point.box.queue = []

/-- All points since the start conserve the spool, and its names
are distinct and drawn. -/
structure Kept (start : World δ ε) (used : List SpoolName) (world : World δ ε) :
    Prop where
  recorded : ∃ points, world.trace = start.trace ++ points ∧
    Run Records start.box points world.box
  distinct : world.box.names.Nodup
  drawn : ∀ name ∈ world.box.names, name ∈ used ++ spooledNames world.trace

section Worlds

variable {start : World δ ε} {used : List SpoolName} {world : World δ ε}

theorem NamesDistinct.earlier {action : Action δ} {box : Spool δ}
    (distinct : NamesDistinct used (world.record action box)) :
    NamesDistinct used world := by
  unfold NamesDistinct spooledNames World.record at distinct
  rw [List.filterMap_append, ← List.append_assoc] at distinct
  exact distinct.of_append_left

/-- The state directory's token and the environment do not matter. -/
theorem Kept.congr {other : World δ ε} (kept : Kept start used world)
    (sameBox : other.box = world.box) (sameTrace : other.trace = world.trace) :
    Kept start used other := by
  obtain ⟨recorded, distinct, drawn⟩ := kept
  rw [← sameBox, ← sameTrace] at recorded
  rw [← sameBox] at distinct drawn
  rw [← sameTrace] at drawn
  exact ⟨recorded, distinct, drawn⟩

theorem Kept.record {action : Action δ} {box : Spool δ}
    (kept : Kept start used world) (conserves : world.box.Conserves box)
    (drained : ∀ tally, action = .flushed tally → tally.kept = 0 → box.queue = [])
    (distinct : box.names.Nodup)
    (drawn : ∀ name ∈ box.names,
      name ∈ used ++ spooledNames (world.record action box).trace) :
    Kept start used (world.record action box) := by
  obtain ⟨points, same, run⟩ := kept.recorded
  have recorded : Records world.box ⟨action, box, world.env⟩ box :=
    ⟨rfl, conserves, drained⟩
  refine ⟨⟨points ++ [_], ?_, run.snoc recorded⟩, distinct, drawn⟩
  rw [← List.append_assoc, ← same]
  rfl

/-- Names in use stay drawn. -/
theorem mem_drawn_record {name : SpoolName} {action : Action δ} {box : Spool δ}
    (member : name ∈ used ++ spooledNames world.trace) :
    name ∈ used ++ spooledNames (world.record action box).trace := by
  unfold spooledNames World.record
  rw [List.filterMap_append, ← List.append_assoc]
  exact List.mem_append_left _ member

end Worlds

/-! ## Programs -/

section Programs

variable {site : Environment δ ε} {start : World δ ε} {used : List SpoolName}

/-- The world is kept and its spool meets a condition. -/
def At (start : World δ ε) (used : List SpoolName) (condition : Spool δ → Prop)
    (world : World δ ε) : Prop :=
  Kept start used world ∧ condition world.box

/-- A condition that an acknowledgement cannot break. -/
def Stable (condition : Spool δ → Prop) : Prop :=
  ∀ box data, condition box → condition (box.confirm data)

variable {condition : Spool δ → Prop}

/-- The outcome of an operation on the agent's machine. -/
def performed (failure : Option AgentError) : Except AgentError Unit :=
  match failure with
  | none => .ok ()
  | some error => .error error

theorem execute_perform (op : LocalOp) (world : World δ ε) :
    (perform site op).execute world =
      (performed (site.perform world.env op).2,
        { world with env := (site.perform world.env op).1 }) := by
  unfold perform
  rw [execute_bind, execute_update]
  cases site.perform world.env op with
  | mk env failure => cases failure <;> rfl

theorem perform_ensures (op : LocalOp) :
    Ensures (NamesDistinct used) (At start used condition) (perform site op)
      fun outcome world => At start used condition world ∧
        ∃ env, outcome = performed (site.perform env op).2 := by
  constructor
  · intro world good
    rw [execute_perform] at good
    exact good
  · intro world _ meets
    rw [execute_perform]
    exact ⟨⟨meets.1.congr rfl rfl, meets.2⟩, world.env, rfl⟩

/-- An update that leaves the spool and the trace as they are. -/
theorem quiet_ensures {change : World δ ε → α × World δ ε}
    (sameBox : ∀ world, (change world).2.box = world.box)
    (sameTrace : ∀ world, (change world).2.trace = world.trace) :
    Ensures (NamesDistinct used) (At start used condition)
      (Program.update change : Library.Program (World δ ε) AgentError α)
      fun outcome world => (∃ value, outcome = .ok value) ∧
        At start used condition world := by
  refine ensures_update (fun world good => ?_) (fun world _ meets => ?_)
  · unfold NamesDistinct at good ⊢
    rw [sameTrace] at good
    exact good
  · exact ⟨⟨_, rfl⟩, meets.1.congr (sameBox world) (sameTrace world),
      (sameBox world).symm ▸ meets.2⟩

/-- An operation on the spool that conserves it and draws no name. -/
theorem recordBox_ensures {action : Action δ} {change : Spool δ → Spool δ}
    {promise : Spool δ → Prop}
    (conserves : ∀ box, box.names.Nodup → condition box →
      box.Conserves (change box) ∧ promise (change box))
    (drained : ∀ box, condition box → ∀ tally, action = .flushed tally →
      tally.kept = 0 → (change box).queue = [])
    (distinct : ∀ box : Spool δ, box.names.Nodup → (change box).names.Nodup)
    (drawn : ∀ box : Spool δ, ∀ name ∈ (change box).names, name ∈ box.names) :
    Ensures (NamesDistinct used) (At start used condition)
      (recordBox action change : Library.Program (World δ ε) AgentError Unit)
      fun outcome world => outcome = .ok () ∧ At start used promise world := by
  refine ensures_update (fun world good => good.earlier)
    (fun world _ meets => ⟨rfl, ?_⟩)
  obtain ⟨kept, meetsCondition⟩ := meets
  obtain ⟨conserved, promised⟩ := conserves world.box kept.distinct meetsCondition
  refine ⟨kept.record conserved (drained world.box meetsCondition)
    (distinct world.box kept.distinct) (fun name member => ?_), promised⟩
  exact mem_drawn_record (kept.drawn name (drawn world.box name member))

/-- Noting an acknowledgement changes neither files nor names. -/
theorem acknowledge_eq (request : Request δ) (reply : Reply) (box : Spool δ) :
    acknowledge request reply box = box ∨
      ∃ data, acknowledge request reply box = box.confirm data := by
  unfold acknowledge
  split
  · exact Or.inl rfl
  · split
    · exact Or.inr ⟨_, rfl⟩
    · exact Or.inl rfl

/-- What an acknowledgement cannot break, noting one does not break. -/
theorem acknowledge_keeps (request : Request δ) (reply : Reply) {box : Spool δ}
    (stable : Stable condition) (meetsCondition : condition box) :
    box.Conserves (acknowledge request reply box) ∧
      (acknowledge request reply box).names = box.names ∧
      condition (acknowledge request reply box) := by
  rcases acknowledge_eq request reply box with same | ⟨data, same⟩
  · rw [same]
    exact ⟨Outbox.Conserves.refl box, rfl, meetsCondition⟩
  · rw [same]
    exact ⟨Outbox.conserves_confirm data, rfl, stable box data meetsCondition⟩

/-- The answer to a request; a bundle answered with a 2xx is acknowledged. -/
theorem transmit_ensures (request : Request δ) (stable : Stable condition) :
    Ensures (NamesDistinct used) (At start used condition) (transmit site request)
      fun outcome world => At start used condition world ∧
        ∀ reply, outcome = .ok reply →
        ∀ server token data, request = .ingest server token data →
          reply.isSuccess = true → data ∈ world.box.confirmed := by
  refine ensures_update (fun world good => good.earlier) (fun world _ meets => ?_)
  obtain ⟨kept, meetsCondition⟩ := meets
  have sent : Kept start used { world with
      env := (site.transmit world.env request).1 } := kept.congr rfl rfl
  obtain ⟨conserved, sameNames, still⟩ := acknowledge_keeps request
    (site.transmit world.env request).2 stable meetsCondition
  refine ⟨⟨sent.record conserved (by rintro tally ⟨⟩) ?_ ?_, still⟩, ?_⟩
  · rw [sameNames]
    exact kept.distinct
  · rw [sameNames]
    exact fun name member => mem_drawn_record (sent.drawn name member)
  · rintro reply ⟨⟩ server token data rfl success
    change data ∈ (acknowledge _ _ _).confirmed
    rw [acknowledge, if_pos success]
    exact List.mem_append_right _ (List.mem_singleton_self data)

/-- The program keeps whatever acknowledgements cannot break. -/
def Harmless (start : World δ ε) (used : List SpoolName)
    (program : Program δ ε α) : Prop :=
  ∀ condition, Stable condition →
    Ensures (NamesDistinct used) (At start used condition) program
      fun _ world => At start used condition world

theorem harmless_pure (value : α) :
    Harmless start used (pure value : Program δ ε α) :=
  fun _ _ => ensures_pure fun _ _ meets => meets

theorem harmless_throw (error : AgentError) :
    Harmless start used (throw error : Program δ ε α) :=
  fun _ _ => ensures_throw fun _ _ meets => meets

theorem Harmless.bind {program : Program δ ε α} {next : α → Program δ ε β}
    (first : Harmless start used program)
    (rest : ∀ value, Harmless start used (next value)) :
    Harmless start used (program >>= next) :=
  fun condition stable =>
    (first condition stable).bind (fun value => rest value condition stable)
      fun _ _ _ meets => meets

theorem Harmless.attempt_bind {program : Program δ ε α}
    {next : Except AgentError α → Program δ ε β}
    (first : Harmless start used program)
    (rest : ∀ outcome, Harmless start used (next outcome)) :
    Harmless start used (Program.attempt program >>= next) :=
  fun condition stable =>
    (first condition stable).attempt_bind
      fun outcome => rest outcome condition stable

theorem harmless_quiet {change : World δ ε → α × World δ ε}
    (sameBox : ∀ world, (change world).2.box = world.box)
    (sameTrace : ∀ world, (change world).2.trace = world.trace) :
    Harmless start used (Program.update change : Program δ ε α) :=
  fun _ _ => (quiet_ensures sameBox sameTrace).weaken (fun _ meets => meets)
    fun _ _ meets => meets.2

theorem harmless_perform (op : LocalOp) : Harmless start used (perform site op) :=
  fun _ _ => (perform_ensures op).weaken (fun _ meets => meets)
    fun _ _ meets => meets.1

theorem harmless_transmit (request : Request δ) :
    Harmless start used (transmit site request) :=
  fun _ stable => (transmit_ensures request stable).weaken (fun _ meets => meets)
    fun _ _ meets => meets.1

theorem harmless_raiseFor (config : AgentConfig) (response : HttpResponse) :
    Harmless start used (raiseFor config response : Program δ ε Unit) := by
  unfold raiseFor
  split
  · exact harmless_throw _
  · exact harmless_pure _

/-! ### Tokens -/

theorem harmless_storedToken : Harmless start used (storedToken site) := by
  unfold storedToken
  refine Harmless.bind (harmless_quiet (fun _ => rfl) fun _ => rfl) fun content => ?_
  cases content with
  | none => exact harmless_pure _
  | some content =>
      exact (harmless_perform _).bind fun _ => harmless_pure _

theorem harmless_writeToken (token : String) :
    Harmless start used (writeToken site token) := by
  unfold writeToken
  refine Harmless.attempt_bind (harmless_perform _) fun outcome => ?_
  cases outcome with
  | ok => exact harmless_quiet (fun _ => rfl) fun _ => rfl
  | error error =>
      refine Harmless.bind (harmless_quiet (fun _ => rfl) fun _ => rfl) fun _ => ?_
      exact harmless_throw _

theorem harmless_unlinkToken : Harmless start used (unlinkToken site) := by
  unfold unlinkToken
  exact (harmless_perform _).bind fun _ =>
    harmless_quiet (fun _ => rfl) fun _ => rfl

theorem harmless_ensureAgentToken (config : AgentConfig) :
    Harmless start used (ensureAgentToken site config) := by
  unfold ensureAgentToken
  refine Harmless.bind harmless_storedToken fun stored => ?_
  cases stored with
  | some token => exact harmless_pure _
  | none =>
  dsimp only
  split
  · exact harmless_throw _
  · refine Harmless.bind (harmless_transmit _) fun reply => ?_
    cases reply with
    | failed message => exact harmless_throw _
    | raised error => exact harmless_throw _
    | response response =>
        refine Harmless.bind (harmless_raiseFor config response) fun _ => ?_
        split
        · exact harmless_throw _
        · exact harmless_throw _
        · refine Harmless.attempt_bind (harmless_writeToken _) fun written => ?_
          split
          · exact harmless_pure _
          · exact harmless_throw _
          · exact harmless_throw _

/-! ### Posting -/

theorem raiseFor_ensures {pre : World δ ε → Prop} (config : AgentConfig)
    (response : HttpResponse) :
    Ensures (NamesDistinct used) pre
      (raiseFor config response : Program δ ε Unit) fun outcome world =>
        pre world ∧ (outcome = .ok () → response.status / 100 = 2) := by
  unfold raiseFor
  split
  · exact ensures_throw fun _ _ meets => ⟨meets, by rintro ⟨⟩⟩
  · next success =>
      exact ensures_pure fun _ _ meets => ⟨meets, fun _ => by omega⟩

/-- A posted bundle whose answer is accepted is acknowledged. -/
theorem postBundle_ensures (config : AgentConfig) (token : String) (data : δ)
    (stable : Stable condition) :
    Ensures (NamesDistinct used) (At start used condition)
      (postBundle site config token data) fun outcome world =>
        At start used condition world ∧
        ∀ body, outcome = .ok body → data ∈ world.box.confirmed := by
  unfold postBundle
  refine (transmit_ensures _ stable).bind (fun reply => ?_) ?_
  · cases reply with
    | failed message =>
        exact ensures_throw fun _ _ meets => ⟨meets.1, by rintro _ ⟨⟩⟩
    | raised error =>
        exact ensures_throw fun _ _ meets => ⟨meets.1, by rintro _ ⟨⟩⟩
    | response response =>
        refine (raiseFor_ensures config response).bind (fun _ => ?_) ?_
        · split
          · refine ensures_pure fun world _ meets => ⟨meets.1.1, ?_⟩
            rintro body ⟨⟩
            have success : (Reply.response response).isSuccess = true := by
              simpa [Reply.isSuccess] using meets.2 rfl
            exact meets.1.2 _ rfl _ _ _ rfl success
          · exact ensures_throw fun _ _ meets => ⟨meets.1.1, by rintro _ ⟨⟩⟩
          · exact ensures_throw fun _ _ meets => ⟨meets.1.1, by rintro _ ⟨⟩⟩
        · exact fun _ _ _ meets => ⟨meets.1.1, by rintro _ ⟨⟩⟩
  · exact fun _ _ _ meets => ⟨meets.1, by rintro _ ⟨⟩⟩

/-! ### Spooling -/

/-- A spooled bundle waits under a name that no other file has. -/
theorem enqueue_ensures (name : SpoolName) (data : δ) :
    Ensures (NamesDistinct used) (At start used condition)
      (recordBox (.spooled name) fun box => box.enqueue ⟨name, data⟩ :
        Program δ ε Unit)
      fun outcome world => outcome = .ok () ∧
        At start used (fun box => ∃ entry ∈ box.queue, entry.data = data) world := by
  refine ensures_update (fun world good => good.earlier)
    (fun world good meets => ⟨rfl, ?_, ?_⟩)
  · have drawn : ∀ other, other = name ∨ other ∈ used ++ spooledNames world.trace →
        other ∈ used ++ spooledNames (world.record (.spooled name)
          (world.box.enqueue ⟨name, data⟩)).trace := by
      intro other either
      unfold spooledNames World.record
      rw [List.filterMap_append, ← List.append_assoc]
      rcases either with rfl | member
      · exact List.mem_append_right _ (List.mem_singleton_self _)
      · exact List.mem_append_left _ member
    have fresh : name ∉ world.box.names := by
      intro taken
      unfold NamesDistinct spooledNames World.record at good
      rw [List.filterMap_append, ← List.append_assoc] at good
      have apart := (List.nodup_append.mp good).2.2 name
        (meets.1.drawn name taken) name (List.mem_singleton_self name)
      exact apart rfl
    apply meets.1.record (Outbox.conserves_enqueue _)
    · rintro tally ⟨⟩
    · exact Outbox.nodup_names_enqueue meets.1.distinct fresh
    · intro other member
      rcases Outbox.mem_names_enqueue member with same | member
      · exact drawn other (Or.inl same)
      · exact drawn other (Or.inr (meets.1.drawn other member))
  · exact ⟨⟨name, data⟩, List.mem_append_right _ (List.mem_singleton_self _), rfl⟩

theorem performed_reliable {op : LocalOp} {outcome : Except AgentError Unit}
    (succeeds : ∀ env, (site.perform env op).2 = none)
    (result : ∃ env, outcome = performed (site.perform env op).2) :
    outcome = .ok () := by
  obtain ⟨env, rfl⟩ := result
  rw [succeeds]
  rfl

/-- What a torn write leaves waits where a bundle would; where
writes succeed there is none. -/
theorem tornBundle_ensures (name : SpoolName) (error : AgentError) :
    Ensures (NamesDistinct used)
      (fun world : World δ ε =>
        Except.error error = (Except.ok () : Except AgentError Unit) ∧
        At start used condition world)
      (Program.update fun world =>
        match site.tornBundle world.env with
        | none => ((), world)
        | some left =>
            ((), world.record (.spooled name)
              (world.box.enqueue ⟨name, left⟩)) : Program δ ε Unit)
      fun _ _ => False := by
  refine ensures_update (fun world good => ?_) (fun _ _ meets => by cases meets.1)
  split at good
  · exact good
  · exact good.earlier

theorem spoolBundle_ensures (reliable : Reliable site) (data : δ) :
    Ensures (NamesDistinct used) (At start used condition) (spoolBundle site data)
      fun outcome world => outcome = .ok () ∧
        At start used (fun box => ∃ entry ∈ box.queue, entry.data = data) world := by
  unfold spoolBundle
  refine (quiet_ensures (fun _ => rfl) fun _ => rfl).bind (fun name => ?_) ?_
  · have written : Ensures (NamesDistinct used) (At start used condition)
        (perform site (.writeSpool name)) fun outcome world =>
          outcome = .ok () ∧ At start used condition world :=
      (perform_ensures _).weaken (fun _ meets => meets) fun outcome _ meets =>
        ⟨performed_reliable (fun env => reliable.writes env name) meets.2, meets.1⟩
    refine (written.weaken (fun _ meets => meets.2)
      fun _ _ meets => meets).attempt_bind fun outcome => ?_
    rcases outcome with error | ⟨⟩
    · exact (tornBundle_ensures name error).bind
        (fun _ => ensures_throw fun _ _ impossible => impossible.elim)
        fun _ _ _ impossible => impossible.elim
    · exact (enqueue_ensures name data).weaken (fun _ meets => meets.2)
        fun _ _ meets => meets
  · rintro error world _ ⟨⟨value, impossible⟩, _⟩
    cases impossible

/-! ### Flushing -/

/-- What holds between two rounds of the loop: the files to come wait under
distinct names, and unless a file was kept nothing else waits. -/
structure Sweep (files : List (SpoolFile δ)) (kept : Nat) (box : Spool δ) : Prop where
  names : (files.map Entry.name).Nodup
  waiting : ∀ file ∈ files, file ∈ box.queue
  complete : kept = 0 → ∀ entry ∈ box.queue, entry ∈ files

theorem stable_sweep (files : List (SpoolFile δ)) (kept : Nat) :
    Stable (Sweep files kept) :=
  fun _ _ sweep => ⟨sweep.names, sweep.waiting, sweep.complete⟩

section Sweeps

variable {file : SpoolFile δ} {rest : List (SpoolFile δ)} {kept : Nat} {box : Spool δ}

theorem Sweep.keep (sweep : Sweep (file :: rest) kept box) :
    Sweep rest (kept + 1) box :=
  ⟨(List.nodup_cons.mp sweep.names).2,
    fun other member => sweep.waiting other (List.mem_cons_of_mem _ member),
    fun none => by omega⟩

/-- A file that leaves the queue takes no other file with it. -/
theorem Sweep.leave {after : Spool δ} (sweep : Sweep (file :: rest) kept box)
    (left : after.queue = box.queue.filter (·.name != file.name)) :
    Sweep rest kept after := by
  obtain ⟨fresh, names⟩ := List.nodup_cons.mp sweep.names
  refine ⟨names, fun other member => ?_, fun none entry member => ?_⟩
  · have apart : other.name ≠ file.name := fun same =>
      fresh (same ▸ List.mem_map_of_mem member)
    rw [left]
    exact List.mem_filter.mpr
      ⟨sweep.waiting other (List.mem_cons_of_mem _ member), by simpa using apart⟩
  · rw [left] at member
    obtain ⟨waiting, apart⟩ := List.mem_filter.mp member
    rcases List.mem_cons.mp (sweep.complete none entry waiting) with rfl | later
    · simp at apart
    · exact later

end Sweeps

section Rounds

variable {file : SpoolFile δ} {rest : List (SpoolFile δ)} {count : Nat}

/-- A reliable operation followed by its record. -/
theorem moved_ensures {op : LocalOp} {action : Action δ}
    {change : Spool δ → Spool δ} {promise : Spool δ → Prop}
    (succeeds : ∀ env, (site.perform env op).2 = none)
    (records : Ensures (NamesDistinct used) (At start used condition)
      (recordBox action change : Program δ ε Unit)
      fun outcome world => outcome = .ok () ∧ At start used promise world) :
    Ensures (NamesDistinct used) (At start used condition)
      (do perform site op; recordBox action change)
      fun outcome world => outcome = .ok () ∧ At start used promise world := by
  refine (perform_ensures op).bind (fun _ => ?_) ?_
  · exact records.weaken (fun _ meets => meets.1) fun _ _ meets => meets
  · intro error world _ meets
    have fine := performed_reliable succeeds meets.2
    cases fine

theorem unlinkSpool_ensures (reliable : Reliable site) :
    Ensures (NamesDistinct used)
      (At start used fun box =>
        Sweep (file :: rest) count box ∧ file.data ∈ box.confirmed)
      (unlinkSpool site file.name)
      fun outcome world => outcome = .ok () ∧
        At start used (Sweep rest count) world := by
  apply moved_ensures (fun env => reliable.removes env file.name)
  apply recordBox_ensures
  · intro box distinct ⟨sweep, confirmed⟩
    exact ⟨Outbox.conserves_remove distinct
      (sweep.waiting file List.mem_cons_self) confirmed, sweep.leave rfl⟩
  · rintro box _ tally ⟨⟩
  · exact fun box => Outbox.nodup_names_remove
  · exact fun box name => Outbox.mem_names_remove

theorem quarantine_ensures (reliable : Reliable site) :
    Ensures (NamesDistinct used) (At start used (Sweep (file :: rest) count))
      (quarantine site file.name)
      fun outcome world => outcome = .ok () ∧
        At start used (Sweep rest count) world := by
  apply moved_ensures (fun env => reliable.renames env file.name)
  apply recordBox_ensures
  · intro box distinct sweep
    have waits : file.name ∈ box.queue.map Entry.name :=
      List.mem_map_of_mem (sweep.waiting file List.mem_cons_self)
    have apart := (List.nodup_append.mp distinct).2.2 file.name waits
    refine ⟨Outbox.conserves_bury fun entry member same => ?_, sweep.leave rfl⟩
    exact apart entry.name (List.mem_map_of_mem member) same.symm
  · rintro box _ tally ⟨⟩
  · exact fun box => Outbox.nodup_names_bury
  · exact fun box name => Outbox.mem_names_bury

/-- One round: the file is kept and counted, or it leaves the queue; the loop
stops only at a kept file. -/
def RoundDone (start : World δ ε) (used : List SpoolName)
    (rest : List (SpoolFile δ)) (outcome : Except AgentError (Tally × Bool))
    (world : World δ ε) : Prop :=
  At start used (fun _ => True) world ∧ ∀ tally goesOn,
    outcome = .ok (tally, goesOn) →
      Sweep rest tally.kept world.box ∧ (goesOn = false → tally.kept ≠ 0)

theorem RoundDone.raised {world : World δ ε} {error : AgentError}
    (kept : Kept start used world) :
    RoundDone start used rest (.error error) world :=
  ⟨⟨kept, trivial⟩, by rintro _ _ ⟨⟩⟩

theorem RoundDone.kept {world : World δ ε} {tally : Tally} {goesOn : Bool}
    (meets : At start used (Sweep (file :: rest) tally.kept) world) :
    RoundDone start used rest
      (.ok (⟨tally.sent, tally.kept + 1, tally.rejected⟩, goesOn)) world := by
  refine ⟨⟨meets.1, trivial⟩, ?_⟩
  rintro _ _ ⟨⟩
  exact ⟨meets.2.keep, fun _ => Nat.succ_ne_zero _⟩

theorem RoundDone.left {world : World δ ε} {tally : Tally}
    (meets : At start used (Sweep rest tally.kept) world) :
    RoundDone start used rest (.ok (tally, true)) world := by
  refine ⟨⟨meets.1, trivial⟩, ?_⟩
  rintro _ _ ⟨⟩
  exact ⟨meets.2, nofun⟩

/-- A file that was answered with an error is rejected, kept, or ends the pass. -/
theorem refusedFile_ensures (reliable : Reliable site) (error : AgentError)
    (tally : Tally) :
    Ensures (NamesDistinct used) (At start used (Sweep (file :: rest) tally.kept))
      (match error.status? with
        | none => throw error
        | some status =>
            if permanentRejects.contains status then do
              match ← Program.attempt (quarantine site file.name) with
              | .ok () =>
                  pure ({ tally with rejected := tally.rejected + 1 }, true)
              | .error (.os _) => pure ({ tally with kept := tally.kept + 1 }, true)
              | .error error => throw error
            else pure ({ tally with kept := tally.kept + 1 }, !stopsPass status))
      (RoundDone start used rest) := by
  have rejects : Ensures (NamesDistinct used)
      (At start used (Sweep (file :: rest) tally.kept))
      (quarantine site file.name) fun outcome world => outcome = .ok () ∧
        At start used (Sweep rest tally.kept) world := quarantine_ensures reliable
  cases error.status? with
  | none => exact ensures_throw fun _ _ meets => RoundDone.raised meets.1
  | some status =>
      dsimp only
      split
      · refine rejects.attempt_bind fun outcome => ?_
        split
        · exact ensures_pure fun _ _ meets => RoundDone.left meets.2
        · exact ensures_pure fun _ _ meets => by cases meets.1
        · exact ensures_throw fun _ _ meets => by cases meets.1
      · exact ensures_pure fun _ _ meets => RoundDone.kept meets

theorem flushFile_ensures (reliable : Reliable site) (config : AgentConfig)
    (token : String) (tally : Tally) :
    Ensures (NamesDistinct used) (At start used (Sweep (file :: rest) tally.kept))
      (flushFile site config token file tally)
      (RoundDone start used rest) := by
  have stable := stable_sweep (file :: rest) tally.kept
  have posts : Ensures (NamesDistinct used)
      (At start used (Sweep (file :: rest) tally.kept))
      (do perform site (.readSpool file.name)
          let _ ← postBundle site config token file.data)
      fun outcome world => At start used (Sweep (file :: rest) tally.kept) world ∧
        (outcome = .ok () → file.data ∈ world.box.confirmed) := by
    refine (perform_ensures _).bind (fun _ => ?_)
      fun _ _ _ meets => ⟨meets.1, nofun⟩
    refine ((postBundle_ensures config token file.data stable).weaken
      (fun _ meets => meets.1) fun _ _ meets => meets).bind (fun body => ?_)
      fun _ _ _ meets => ⟨meets.1, nofun⟩
    exact ensures_pure fun _ _ meets => ⟨meets.1, fun _ => meets.2 body rfl⟩
  unfold flushFile
  refine posts.attempt_bind fun posted => ?_
  rcases posted with error | ⟨⟩
  · have answered :=
      @refusedFile_ensures _ _ site start used file rest reliable error tally
    cases error with
    | os message => exact ensures_pure fun _ _ meets => RoundDone.kept meets.1
    | report status detail => exact answered.assume fun _ meets => meets.1
    | permanentReject status detail =>
        exact answered.assume fun _ meets => meets.1
    | other message => exact answered.assume fun _ meets => meets.1
  · have removes : Ensures (NamesDistinct used)
        (At start used fun box =>
          Sweep (file :: rest) tally.kept box ∧ file.data ∈ box.confirmed)
        (unlinkSpool site file.name) fun outcome world => outcome = .ok () ∧
          At start used (Sweep rest tally.kept) world := unlinkSpool_ensures reliable
    refine (removes.assume ?_).attempt_bind fun outcome => ?_
    · exact fun world meets => ⟨meets.1.1, meets.1.2, meets.2 rfl⟩
    · split
      · exact ensures_pure fun _ _ meets => RoundDone.left meets.2
      · exact ensures_pure fun _ _ meets => by cases meets.1
      · exact ensures_throw fun _ _ meets => by cases meets.1

end Rounds

/-- The loop empties the spool unless it kept a file. -/
theorem flushFiles_ensures (reliable : Reliable site) (config : AgentConfig)
    (token : String) (files : List (SpoolFile δ)) (tally : Tally) :
    Ensures (NamesDistinct used) (At start used (Sweep files tally.kept))
      (flushFiles site config token files tally)
      fun outcome world => At start used (fun _ => True) world ∧
        ∀ result, outcome = .ok result → result.kept = 0 →
          world.box.queue = [] := by
  induction files generalizing tally with
  | nil =>
      refine ensures_pure fun world _ meets => ⟨⟨meets.1, trivial⟩, ?_⟩
      rintro _ ⟨⟩ none
      exact List.eq_nil_iff_forall_not_mem.mpr fun entry member =>
        List.not_mem_nil (meets.2.complete none entry member)
  | cons file rest inductionHypothesis =>
      refine (flushFile_ensures reliable config token tally).bind (fun value => ?_) ?_
      · rcases value with ⟨after, goesOn⟩
        cases goesOn with
        | true =>
            exact (inductionHypothesis after).assume fun world meets =>
              ⟨meets.1.1, (meets.2 after true rfl).1⟩
        | false =>
            refine ensures_pure fun world _ meets => ⟨meets.1, ?_⟩
            rintro _ ⟨⟩ none
            exact absurd none ((meets.2 after false rfl).2 rfl)
      · exact fun _ _ _ meets => ⟨meets.1, nofun⟩

/-- A flush sees every file. -/
theorem sweep_sortedFiles {box : Spool δ} (distinct : box.names.Nodup) :
    Sweep (sortedFiles box) 0 box := by
  have same := box.queue.perm_insertionSort fun left right =>
    left.name.le right.name = true
  have queued : (box.queue.map Entry.name).Nodup := (List.nodup_append.mp distinct).1
  exact ⟨(same.map Entry.name).nodup_iff.mpr queued,
    fun _ member => same.mem_iff.mp member, fun _ _ member => same.mem_iff.mpr member⟩

theorem flushSpool_ensures (reliable : Reliable site) (config : AgentConfig)
    (token : String) :
    Ensures (NamesDistinct used) (At start used fun _ => True)
      (flushSpool site config token)
      fun _ world => At start used (fun _ => True) world := by
  unfold flushSpool
  have lists : Ensures (NamesDistinct used) (At start used fun _ => True)
      (Program.update fun world => (sortedFiles world.box, world) :
        Program δ ε (List (SpoolFile δ)))
      fun outcome world => ∃ files, outcome = .ok files ∧
        At start used (Sweep files 0) world :=
    ensures_update (fun _ good => good) fun _ _ meets =>
      ⟨_, rfl, meets.1, sweep_sortedFiles meets.1.distinct⟩
  refine lists.bind (fun files => ?_) (by rintro _ _ _ ⟨_, ⟨⟩, _⟩)
  refine ((flushFiles_ensures reliable config token files ⟨0, 0, 0⟩).assume ?_).bind
    (fun tally => ?_) fun _ _ _ meets => meets.1
  · rintro world ⟨_, ⟨⟩, meets⟩
    exact meets
  have records : Ensures (NamesDistinct used)
      (At start used fun box => tally.kept = 0 → box.queue = [])
      (recordBox (.flushed tally) id : Program δ ε Unit)
      fun outcome world => outcome = .ok () ∧ At start used (fun _ => True) world := by
    apply recordBox_ensures
    · exact fun box _ _ => ⟨Outbox.Conserves.refl box, trivial⟩
    · rintro box drained _ ⟨⟩ none
      exact drained none
    · exact fun _ distinct => distinct
    · exact fun _ _ member => member
  refine (records.assume fun world meets => ⟨meets.1.1, meets.2 tally rfl⟩).bind
    (fun _ => ?_) fun _ _ _ meets => meets.2
  exact ensures_pure fun _ _ meets => meets.2

/-! ### Reporting -/

theorem stable_true : Stable (fun _ : Spool δ => True) := fun _ _ _ => trivial

/-- A bundle that `send` returns for is acknowledged. -/
def Sent (start : World δ ε) (used : List SpoolName) (data : δ)
    (outcome : Except AgentError Json) (world : World δ ε) : Prop :=
  At start used (fun _ => True) world ∧
    ∀ body, outcome = .ok body → data ∈ world.box.confirmed

theorem sent_raised {data : δ} {error : AgentError} {world : World δ ε}
    (meets : At start used (fun _ => True) world) :
    Sent start used data (.error error) world :=
  ⟨meets, nofun⟩

/-- The bundle is posted after the spool was flushed. -/
theorem postFlushed_ensures (reliable : Reliable site) (config : AgentConfig) (data : δ)
    (token : String) :
    Ensures (NamesDistinct used) (At start used fun _ => True)
      (do let _ ← flushSpool site config token
          match ← Program.attempt (postBundle site config token data) with
          | .ok body => pure body
          | .error (.report status detail) =>
              if permanentRejects.contains status then
                throw (.permanentReject status s!"{detail} (permanent rejection)")
              else throw (.report status detail)
          | .error error => throw error)
      (Sent start used data) := by
  refine (flushSpool_ensures reliable config token).bind (fun _ => ?_)
    fun _ _ _ meets => sent_raised meets
  refine (postBundle_ensures config token data stable_true).attempt_bind
    fun outcome => ?_
  split
  · exact ensures_pure fun _ _ meets => ⟨meets.1, fun _ _ => meets.2 _ rfl⟩
  · split
    · exact ensures_throw fun _ _ meets => sent_raised meets.1
    · exact ensures_throw fun _ _ meets => sent_raised meets.1
  · exact ensures_throw fun _ _ meets => sent_raised meets.1

theorem send_ensures (reliable : Reliable site) (config : AgentConfig) (data : δ) :
    Ensures (NamesDistinct used) (At start used fun _ => True)
      (send site config data) (Sent start used data) := by
  have posts := @postFlushed_ensures _ _ site start used reliable config data
  unfold send
  cases given config.agentToken with
  | some token =>
      exact (harmless_pure token _ stable_true).bind posts
        fun _ _ _ meets => sent_raised meets
  | none =>
      exact (harmless_ensureAgentToken config _ stable_true).bind posts
        fun _ _ _ meets => sent_raised meets

theorem sendOrReenroll_ensures (reliable : Reliable site) (config : AgentConfig)
    (data : δ) :
    Ensures (NamesDistinct used) (At start used fun _ => True)
      (sendOrReenroll site config data) (Sent start used data) := by
  unfold sendOrReenroll
  refine (send_ensures reliable config data).attempt_bind fun outcome => ?_
  cases outcome with
  | ok body => exact ensures_pure fun _ _ meets => ⟨meets.1, fun _ _ => meets.2 body rfl⟩
  | error error =>
  dsimp only
  split
  · cases given config.enrollToken with
    | none => exact ensures_throw fun _ _ meets => sent_raised meets.1
    | some enrollToken =>
        refine ((harmless_unlinkToken _ stable_true).assume
          fun _ meets => meets.1).bind (fun _ => ?_)
          fun _ _ _ meets => sent_raised meets
        refine (harmless_perform _ _ stable_true).bind (fun _ => ?_)
          fun _ _ _ meets => sent_raised meets
        exact send_ensures reliable config data
  · exact ensures_throw fun _ _ meets => sent_raised meets.1

/-- A report leaves the bundle it dumped acknowledged, spooled or refused. -/
theorem reportScan_ensures (reliable : Reliable site) (config : AgentConfig)
    (prepared : Except AgentError δ) :
    Ensures (NamesDistinct used) (At start used fun _ => True)
      (reportScan site config prepared) fun _ world =>
        At start used (fun box => ∀ data, prepared = .ok data → box.Holds data)
          world := by
  unfold reportScan
  cases prepared with
  | error error => exact ensures_throw fun _ _ meets => ⟨meets.1, nofun⟩
  | ok data =>
  have dumps : Ensures (NamesDistinct used) (At start used fun _ => True)
      (recordBox (.dumped data) id : Program δ ε Unit)
      fun outcome world => outcome = .ok () ∧ At start used (fun _ => True) world := by
    apply recordBox_ensures
    · exact fun box _ _ => ⟨Outbox.Conserves.refl box, trivial⟩
    · rintro box _ tally ⟨⟩
    · exact fun _ distinct => distinct
    · exact fun _ _ member => member
  have refuses : Ensures (NamesDistinct used) (At start used fun _ => True)
      (recordBox (.refused data) (fun box => box.refuse data) : Program δ ε Unit)
      fun outcome world => outcome = .ok () ∧
        At start used (fun box => data ∈ box.refused) world := by
    apply recordBox_ensures
    · exact fun box _ _ => ⟨Outbox.conserves_refuse data,
        List.mem_append_right _ (List.mem_singleton_self data)⟩
    · rintro box _ tally ⟨⟩
    · exact fun _ distinct => distinct
    · exact fun _ _ member => member
  have spools : Ensures (NamesDistinct used) (At start used fun _ => True)
      (spoolBundle site data) fun outcome world => outcome = .ok () ∧
        At start used (fun box => ∃ entry ∈ box.queue, entry.data = data) world :=
    spoolBundle_ensures reliable data
  refine dumps.bind (fun _ => ?_) (by rintro _ _ _ ⟨⟨⟩, _⟩)
  refine ((sendOrReenroll_ensures reliable config data).assume
    fun _ meets => meets.2).attempt_bind fun outcome => ?_
  split
  · refine ensures_pure fun world _ meets => ⟨meets.1.1, ?_⟩
    rintro _ ⟨⟩
    exact Or.inl (meets.2 _ rfl)
  · refine (refuses.assume fun _ meets => meets.1).bind (fun _ => ?_)
      (by rintro _ _ _ ⟨⟨⟩, _⟩)
    refine ensures_throw fun world _ meets => ⟨meets.2.1, ?_⟩
    rintro _ ⟨⟩
    exact Or.inr (Or.inr (Or.inr meets.2.2))
  · refine (spools.assume fun _ meets => meets.1).attempt_bind fun spooled => ?_
    split
    · refine ensures_pure fun world _ meets => ⟨meets.2.1, ?_⟩
      rintro _ ⟨⟩
      exact Or.inr (Or.inl meets.2.2)
    · exact ensures_throw fun _ _ meets => nomatch meets.1

theorem flushes_ensures (reliable : Reliable site) (config : AgentConfig)
    (prepared : Except AgentError Unit) :
    Ensures (NamesDistinct used) (At start used fun _ => True)
      (match prepared with
        | .error error => throw error
        | .ok () => do
            let token ← ensureAgentToken site config
            flushSpool site config token)
      fun _ world => At start used (fun _ => True) world := by
  rcases prepared with error | ⟨⟩
  · exact ensures_throw fun _ _ meets => meets
  · refine (harmless_ensureAgentToken config _ stable_true).bind (fun token => ?_)
      fun _ _ _ meets => meets
    exact flushSpool_ensures reliable config token

theorem flushOnly_ensures (reliable : Reliable site) (config : AgentConfig)
    (prepared : Except AgentError Unit) :
    Ensures (NamesDistinct used) (At start used fun _ => True)
      (flushOnly site config prepared)
      fun _ world => At start used (fun _ => True) world := by
  unfold flushOnly
  have flushes := @flushes_ensures _ _ site start used reliable config prepared
  refine flushes.attempt_bind fun flushed => ?_
  split
  · exact ensures_pure fun _ _ meets => meets
  · split
    · exact ensures_pure fun _ _ meets => meets
    · exact ensures_throw fun _ _ meets => meets

/-- A call leaves the bundle it dumped somewhere. -/
theorem call_ensures (reliable : Reliable site) (call : Call δ) :
    Ensures (NamesDistinct used) (At start used fun _ => True) (call.program site)
      fun _ world => At start used
        (fun box => ∀ data, call.dumps = some data → box.Holds data) world := by
  cases call with
  | report config prepared =>
      have holds : ∀ world : World δ ε, At start used
          (fun box => ∀ data, prepared = .ok data → box.Holds data) world →
          At start used (fun box => ∀ data,
            (Call.report config prepared).dumps = some data → box.Holds data)
            world := by
        intro world meets
        refine ⟨meets.1, fun data dumped => meets.2 data ?_⟩
        rcases prepared with error | prepared
        · cases dumped
        · cases dumped
          rfl
      refine (reportScan_ensures reliable config prepared).bind (fun _ => ?_) ?_
      · exact ensures_pure fun world _ meets => holds world meets
      · exact fun _ world _ meets => holds world meets
  | flush config token =>
      refine (flushSpool_ensures reliable config token).bind (fun _ => ?_) ?_
      · exact ensures_pure fun _ _ meets => ⟨meets.1, nofun⟩
      · exact fun _ _ _ meets => ⟨meets.1, nofun⟩
  | tick config prepared =>
      refine (flushOnly_ensures reliable config prepared).bind (fun _ => ?_) ?_
      · exact ensures_pure fun _ _ meets => ⟨meets.1, nofun⟩
      · exact fun _ _ _ meets => ⟨meets.1, nofun⟩

/-! ## Sequences of calls -/

theorem Kept.refl {used : List SpoolName} {world : World δ ε}
    (distinct : world.box.names.Nodup)
    (drawn : ∀ name ∈ world.box.names, name ∈ used ++ spooledNames world.trace) :
    Kept world used world :=
  ⟨⟨[], (List.append_nil _).symm, .nil⟩, distinct, drawn⟩

theorem call_kept (reliable : Reliable site) {world : World δ ε} {call : Call δ}
    (kept : Kept start used world)
    (good : NamesDistinct used ((call.program site).execute world).2) :
    Kept start used ((call.program site).execute world).2 ∧
      ∀ data, call.dumps = some data →
        ((call.program site).execute world).2.box.Holds data :=
  (call_ensures reliable call).holds world good ⟨kept, trivial⟩

theorem calls_earlier (reliable : Reliable site) {world : World δ ε}
    {calls : List (Call δ)} (good : NamesDistinct used (runCalls site world calls)) :
    NamesDistinct used world := by
  induction calls generalizing world with
  | nil => exact good
  | cons call rest inductionHypothesis =>
      have triple : Ensures (NamesDistinct used) (At world used fun _ => True)
          (call.program site) _ := call_ensures reliable call
      exact triple.earlier world (inductionHypothesis good)

theorem calls_kept (reliable : Reliable site) {world : World δ ε}
    {calls : List (Call δ)} (kept : Kept start used world)
    (good : NamesDistinct used (runCalls site world calls)) :
    Kept start used (runCalls site world calls) := by
  induction calls generalizing world with
  | nil => exact kept
  | cons call rest inductionHypothesis =>
      have between : NamesDistinct used ((call.program site).execute world).2 :=
        calls_earlier reliable good
      exact inductionHypothesis (call_kept reliable kept between).1 good

/-- What is held stays held along a run. -/
theorem holds_of_run {before after : Spool δ} {points : List (Point δ ε)} {data : δ}
    (run : Run Records before points after) (held : before.Holds data) :
    after.Holds data ∧ ∀ point ∈ points, point.box.Holds data := by
  induction run with
  | nil => exact ⟨held, nofun⟩
  | snoc earlier last inductionHypothesis =>
      have now := last.conserves.holds inductionHypothesis.1
      refine ⟨now, fun point member => ?_⟩
      rcases List.mem_append.mp member with before | here
      · exact inductionHypothesis.2 point before
      · rw [List.mem_singleton.mp here, ← last.snapshot]
        exact now

/-- The spool right after a point is the one the point records. -/
theorem box_of_run {before after : Spool δ} {points : List (Point δ ε)}
    {point : Point δ ε} (run : Run Records before (points ++ [point]) after) :
    after = point.box := by
  obtain ⟨middle, _, last⟩ := run.of_snoc
  exact last.snapshot

/-- What leaves the spool between two points was acknowledged
before, or is put aside. -/
theorem leaves_of_run {before after : Spool δ} {earlier later : List (Point δ ε)}
    {left right : Point δ ε}
    (run : Run Records before (earlier ++ left :: right :: later) after)
    {file : SpoolFile δ} (waited : file ∈ left.box.queue)
    (gone : file ∉ right.box.queue) :
    file.data ∈ left.box.confirmed ∨ file ∈ right.box.dead := by
  have cut : Run Records before ((earlier ++ [left]) ++ (right :: later)) after := by
    simpa using run
  obtain ⟨middle, first, rest⟩ := cut.split
  obtain ⟨next, step, _⟩ := rest.of_cons
  rw [← box_of_run first] at waited ⊢
  rw [← step.snapshot] at gone ⊢
  exact (step.conserves.queue file waited).resolve_left gone

/-- A flush that kept nothing ends on an empty spool. -/
theorem drained_of_run {before after : Spool δ} {points : List (Point δ ε)}
    {point : Point δ ε} (run : Run Records before points after)
    (member : point ∈ points) {tally : Tally} (flushed : point.action = .flushed tally)
    (none : tally.kept = 0) : point.box.queue = [] := by
  obtain ⟨earlier, later, rfl⟩ := List.append_of_mem member
  obtain ⟨middle, _, rest⟩ := run.split
  obtain ⟨next, step, _⟩ := rest.of_cons
  exact step.drained tally flushed none

end Programs

/-- No bundle is lost in the sequence of calls: from the end of the call that
dumped it, it is acknowledged, spooled, put aside or refused at every point; a
file leaves the spool acknowledged or put aside; a flush that kept nothing
leaves no file. -/
structure Conserved (site : Environment δ ε) (start : World δ ε)
    (calls : List (Call δ)) : Prop where
  held : ∀ earlier call later data, calls = earlier ++ call :: later →
    call.dumps = some data →
    (runCalls site start (earlier ++ [call])).box.Holds data ∧
      ∃ points, (runCalls site start calls).trace =
          (runCalls site start (earlier ++ [call])).trace ++ points ∧
        ∀ point ∈ points, point.box.Holds data
  leaves : ∀ earlier left right later,
    (runCalls site start calls).trace = earlier ++ left :: right :: later →
    ∀ file ∈ left.box.queue, file ∉ right.box.queue →
      file.data ∈ left.box.confirmed ∨ file ∈ right.box.dead
  drained : ∀ point ∈ (runCalls site start calls).trace, ∀ tally,
    point.action = .flushed tally → tally.kept = 0 → point.box.queue = []

/-- No dumped bundle is lost, whatever the network does. -/
theorem no_bundle_lost {site : Environment δ ε} (reliable : Reliable site)
    (start : World δ ε) (calls : List (Call δ)) (fresh : start.trace = [])
    (distinct : NamesDistinct start.box.names (runCalls site start calls)) :
    Conserved site start calls := by
  have initial : Kept start start.box.names start := by
    apply Kept.refl
    · have before := calls_earlier reliable distinct
      exact (List.nodup_append.mp before).1
    · exact fun name member => List.mem_append_left _ member
  obtain ⟨points, same, run⟩ := (calls_kept reliable initial distinct).recorded
  rw [fresh, List.nil_append] at same
  constructor
  · rintro earlier call later data rfl dumped
    have cut : runCalls site start (earlier ++ call :: later) =
        runCalls site (runCalls site start (earlier ++ [call])) later := by
      simp [runCalls]
    have ends : runCalls site start (earlier ++ [call]) =
        ((call.program site).execute (runCalls site start earlier)).2 := by
      simp [runCalls]
    rw [cut] at distinct ⊢
    have returned := calls_earlier reliable distinct
    have made := returned
    rw [ends] at made
    have triple : Ensures (NamesDistinct start.box.names)
        (At start start.box.names fun _ => True) (call.program site) _ :=
      call_ensures reliable call
    have before := calls_kept reliable initial (triple.earlier _ made)
    obtain ⟨kept, holds⟩ := call_kept reliable before made
    rw [← ends] at kept holds
    have after := calls_kept reliable (Kept.refl kept.distinct kept.drawn) distinct
    obtain ⟨points, same, run⟩ := after.recorded
    exact ⟨holds data dumped, points, same, (holds_of_run run (holds data dumped)).2⟩
  · intro earlier left right later whole file waited gone
    rw [same] at whole
    rw [whole] at run
    exact leaves_of_run run waited gone
  · intro point member tally flushed none
    rw [same] at member
    exact drained_of_run run member flushed none

/-- An agent whose requests are answered by a list of replies, and by nobody
once it is used up; spooled files are numbered. -/
def scriptedSite : Environment String (List Reply × Nat) where
  transmit
    | (reply :: later, count), _ => ((later, count), reply)
    | ([], count), _ => (([], count), .failed "connection refused")
  perform env _ := (env, none)
  drawName | (replies, count) => ((replies, count + 1), ⟨count, ""⟩)
  tornToken _ := none
  tornBundle _ := none

/-- A report with a fixed agent token. -/
def tokenConfig : AgentConfig where
  text := asciiText
  server := "https://collector"
  enrollToken := none
  agentToken := some "t1"
  identity := ⟨"m1", "", "", Dict.empty, ""⟩
  stateDir := "agent"

/-- The first bundle is spooled when the collector is throttled; the second
report delivers both. -/
theorem no_bundle_lost_spooled :
    Conserved scriptedSite
      (World.initial ([.response ⟨429, "", .error ""⟩,
        .response ⟨200, "", .ok (.object [])⟩, .response ⟨200, "", .ok (.object [])⟩], 0))
      [.report tokenConfig (.ok "a"), .report tokenConfig (.ok "b")] :=
  no_bundle_lost ⟨fun _ _ => rfl, fun _ _ => rfl, fun _ _ => rfl⟩ _ _ rfl
    (by unfold NamesDistinct; decide)

end Agent
end PqcScan
