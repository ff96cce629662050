import Karst.Proofs.Cache.Pool

/-!
A pool and its borrowers over a whole run. The statistics count what passed between them, objects
are lent again in the order in which they came back, and no object is in two places: a run is
repeated with objects that carry their origin, which nothing but the factory or a borrower gives
them.
-/

namespace Karst

variable {α β : Type}

/-- What borrowers do. A holding is named by its place among those held at the time. -/
inductive PoolCall (α : Type) where
  | take
  | acquire
  /-- A borrower comes by an object that is not from the pool. -/
  | bring (object : α)
  | alter (place : Nat) (change : α → α)
  | detach (place : Nat)
  | put (place : Nat)
  | drop (place : Nat)

def PoolCall.borrows : PoolCall α → Bool
  | .take => true
  | .acquire => true
  | _ => false

def Holding.detached (holding : Holding α) : Holding α := .owned holding.object

inductive PoolEvent.Kind where
  | handed
  | returned
deriving DecidableEq

/-- An object that passes between the pool and a borrower, as it is at the time, and how many
objects are idle just before. -/
structure PoolEvent (α : Type) where
  kind : PoolEvent.Kind
  object : α
  idle : Nat

abbrev PoolLog (α : Type) := List (PoolEvent α)

namespace PoolLog

def select (log : PoolLog α) (which : PoolEvent.Kind → Nat → Bool) : List α :=
  (log.filter fun event => which event.kind event.idle).map PoolEvent.object

/-- Handed out while no object was idle. -/
def made (log : PoolLog α) : List α := log.select fun kind idle => kind = .handed && idle = 0

def reused (log : PoolLog α) : List α := log.select fun kind idle => kind = .handed && 0 < idle

def returned (log : PoolLog α) : List α := log.select fun kind _ => kind = .returned

/-- Returned while there was room for one more. -/
def kept (room : Nat) (log : PoolLog α) : List α :=
  log.select fun kind idle => kind = .returned && idle < room

def refused (room : Nat) (log : PoolLog α) : List α :=
  log.select fun kind idle => kind = .returned && room ≤ idle

theorem select_concat (log : PoolLog α) (event : PoolEvent α)
    (which : PoolEvent.Kind → Nat → Bool) : (log ++ [event] : PoolLog α).select which =
      log.select which ++ if which event.kind event.idle then [event.object] else [] := by
  rw [select, List.filter_append, List.map_append, List.filter_singleton]
  cases which event.kind event.idle <;> rfl

theorem length_returned (room : Nat) (log : PoolLog α) :
    log.returned.length = (log.kept room).length + (log.refused room).length := by
  induction log using List.reverseRecOn with
  | nil => rfl
  | append_singleton log event ih =>
    obtain ⟨kind, object, idle⟩ := event
    simp only [returned, kept, refused, select_concat, List.length_append] at ih ⊢
    cases kind with
    | handed => simpa using ih
    | returned =>
      by_cases fits : idle < room
      · have inside : ¬ room ≤ idle := by omega
        simp [fits, inside]
        omega
      · have beyond : room ≤ idle := by omega
        simp [fits, beyond]
        omega

end PoolLog

structure PoolRun (α : Type) where
  pool : Pool α
  held : List (Holding α) := []
  log : PoolLog α := []

namespace PoolRun

def start (capacity : Nat) : PoolRun α := ⟨.ofCapacity capacity, [], []⟩

def receive (factory : Nat → α) (run : PoolRun α) (hold : α → Holding α) : PoolRun α :=
  let (object, pool) := run.pool.take (factory run.pool.created)
  ⟨pool, run.held ++ [hold object], run.log ++ [⟨.handed, object, run.pool.stats.idle⟩]⟩

def part (run : PoolRun α) (place : Nat) (pool : Pool α) (back : List α) : PoolRun α :=
  ⟨pool, run.held.eraseIdx place,
    run.log ++ back.map fun object => ⟨.returned, object, run.pool.stats.idle⟩⟩

def onHeld (run : PoolRun α) (place : Nat) (change : Holding α → Holding α) : PoolRun α :=
  { run with held := run.held.modify place change }

variable [Recyclable α]

def call (factory : Nat → α) (run : PoolRun α) : PoolCall α → PoolRun α
  | .take => run.receive factory .owned
  | .acquire => run.receive factory .lent
  | .bring object => { run with held := run.held ++ [.owned object] }
  | .alter place change => run.onHeld place (Holding.map change)
  | .detach place => run.onHeld place Holding.detached
  | .put place =>
      match run.held[place]? with
      | some (.owned object) => run.part place (run.pool.put object) [object]
      | _ => run
  | .drop place =>
      match run.held[place]? with
      | some (.owned object) => run.part place ((Holding.owned object).letGo run.pool) []
      | some (.lent object) => run.part place ((Holding.lent object).letGo run.pool) [object]
      | none => run

def after (factory : Nat → α) (run : PoolRun α) (history : List (PoolCall α)) : PoolRun α :=
  history.foldl (call factory) run

theorem after_concat (factory : Nat → α) (run : PoolRun α) (history : List (PoolCall α))
    (last : PoolCall α) :
    run.after factory (history ++ [last]) = (run.after factory history).call factory last := by
  simp [after]

/-- How the call to end a holding may end: there is none such, it vanishes, or it goes back. -/
inductive Ends (run : PoolRun α) (place : Nat) : PoolRun α → Prop
  | unchanged : Ends run place run
  | vanished {holding : Holding α} (held : run.held[place]? = some holding) :
      Ends run place (run.part place run.pool [])
  | returned {holding : Holding α} (held : run.held[place]? = some holding) :
      Ends run place (run.part place (run.pool.put holding.object) [holding.object])

theorem ends_put (factory : Nat → α) (run : PoolRun α) (place : Nat) :
    run.Ends place (run.call factory (.put place)) := by
  simp only [call]
  split
  case h_1 held => exact .returned held
  case h_2 => exact .unchanged

theorem ends_drop (factory : Nat → α) (run : PoolRun α) (place : Nat) :
    run.Ends place (run.call factory (.drop place)) := by
  simp only [call]
  split
  case h_1 held => exact .vanished held
  case h_2 held => exact .returned held
  case h_3 => exact .unchanged

end PoolRun

/-! ## Accounts -/

/-- The pool has room for `room` objects, `borrowed` were asked of it, and the log tells where they
came from and where those went that were returned. -/
structure PoolLog.Accounts (factory : Nat → α) [Recyclable α] (room borrowed : Nat) (pool : Pool α)
    (log : PoolLog α) : Prop where
  capacity : pool.capacity = room
  bounded : pool.idle.length ≤ room
  borrowed : pool.created + pool.reused = borrowed
  made : log.made = (List.range pool.created).map factory
  reused : log.reused.length = pool.reused
  queue : (log.kept room).map Recyclable.recycle = log.reused ++ pool.idle
  refused : (log.refused room).length = pool.discarded

namespace PoolLog.Accounts

variable [Recyclable α] {factory : Nat → α} {room borrowed : Nat} {pool : Pool α} {log : PoolLog α}

theorem ofCapacity (factory : Nat → α) (capacity : Nat) :
    Accounts factory (max capacity 1) 0 (Pool.ofCapacity capacity) [] := by
  constructor
  · rfl
  · exact Nat.zero_le _
  all_goals rfl

theorem take (accounts : log.Accounts factory room borrowed pool) :
    Accounts factory room (borrowed + 1) (pool.take (factory pool.created)).2
      (log ++ [⟨.handed, (pool.take (factory pool.created)).1, pool.stats.idle⟩]) := by
  have counted := accounts.borrowed
  cases idle : pool.idle with
  | nil =>
    rw [Pool.take_of_nil idle]
    have waits : pool.stats.idle = 0 := congrArg List.length idle
    constructor
    · exact accounts.capacity
    · exact accounts.bounded
    · simp only
      omega
    · simpa [PoolLog.made, select_concat, waits, List.range_succ] using accounts.made
    · simpa [PoolLog.reused, select_concat, waits] using accounts.reused
    · simpa [kept, PoolLog.reused, select_concat, waits] using accounts.queue
    · simpa [PoolLog.refused, select_concat] using accounts.refused
  | cons object others =>
    rw [Pool.take_of_cons idle]
    have waits : pool.stats.idle = others.length + 1 := congrArg List.length idle
    have bounded := accounts.bounded
    have queue := accounts.queue
    rw [idle] at bounded queue
    constructor
    · exact accounts.capacity
    · exact Nat.le_of_succ_le bounded
    · simp only
      omega
    · simpa [PoolLog.made, select_concat, waits] using accounts.made
    · simpa [PoolLog.reused, select_concat, waits] using accounts.reused
    · simpa [kept, PoolLog.reused, select_concat, waits] using queue
    · simpa [PoolLog.refused, select_concat] using accounts.refused

theorem put (accounts : log.Accounts factory room borrowed pool) (object : α) :
    Accounts factory room borrowed (pool.put object)
      (log ++ [⟨.returned, object, pool.stats.idle⟩]) := by
  have capacity := accounts.capacity
  have waits : pool.stats.idle = pool.idle.length := rfl
  by_cases fits : pool.idle.length < room
  · rw [Pool.put_of_lt (capacity ▸ fits)]
    have inside : ¬ room ≤ pool.idle.length := by omega
    constructor
    · exact capacity
    · simpa using fits
    · exact accounts.borrowed
    · simpa [PoolLog.made, select_concat] using accounts.made
    · simpa [PoolLog.reused, select_concat] using accounts.reused
    · have longer := congrArg (· ++ [Recyclable.recycle object]) accounts.queue
      simpa [kept, PoolLog.reused, select_concat, waits, fits] using longer
    · simpa [PoolLog.refused, select_concat, waits, inside] using accounts.refused
  · have beyond : room ≤ pool.idle.length := by omega
    rw [Pool.put_of_le (capacity ▸ beyond)]
    constructor
    · exact capacity
    · exact accounts.bounded
    · exact accounts.borrowed
    · simpa [PoolLog.made, select_concat] using accounts.made
    · simpa [PoolLog.reused, select_concat] using accounts.reused
    · simpa [kept, PoolLog.reused, select_concat, waits, fits] using accounts.queue
    · simpa [PoolLog.refused, select_concat, waits, beyond] using accounts.refused

theorem ends {run next : PoolRun α} {place : Nat}
    (accounts : run.log.Accounts factory room borrowed run.pool) (ends : run.Ends place next) :
    next.log.Accounts factory room borrowed next.pool := by
  cases ends with
  | unchanged => exact accounts
  | vanished => simpa [PoolRun.part] using accounts
  | returned => exact accounts.put _

theorem call {run : PoolRun α} (accounts : run.log.Accounts factory room borrowed run.pool)
    (c : PoolCall α) : (run.call factory c).log.Accounts factory room
      (borrowed + [c].countP PoolCall.borrows) (run.call factory c).pool := by
  cases c with
  | take => exact accounts.take
  | acquire => exact accounts.take
  | bring object => exact accounts
  | alter place change => exact accounts
  | detach place => exact accounts
  | put place => exact accounts.ends (run.ends_put factory place)
  | drop place => exact accounts.ends (run.ends_drop factory place)

theorem after (factory : Nat → α) (capacity : Nat) (history : List (PoolCall α)) :
    let run := (PoolRun.start capacity).after factory history
    run.log.Accounts factory (max capacity 1) (history.countP PoolCall.borrows) run.pool := by
  induction history using List.reverseRecOn with
  | nil => exact ofCapacity factory capacity
  | append_singleton history last ih =>
    rw [List.countP_append, PoolRun.after_concat]
    exact ih.call last

theorem returned (accounts : log.Accounts factory room borrowed pool) :
    log.returned.length = pool.reused + pool.idle.length + pool.discarded := by
  have queue := congrArg List.length accounts.queue
  rw [List.length_map, List.length_append, accounts.reused] at queue
  rw [log.length_returned room, queue, accounts.refused]

end PoolLog.Accounts

/-! ## Origins -/

/-- The `n`-th object of the factory, or the one that came with the `n`-th call. -/
inductive Tracked.Origin where
  | made (n : Nat)
  | brought (n : Nat)

structure Tracked (α : Type) where
  origin : Tracked.Origin
  object : α

namespace Tracked

def ofFactory (factory : Nat → α) (n : Nat) : Tracked α := ⟨.made n, factory n⟩

def alter (change : α → α) (tracked : Tracked α) : Tracked α :=
  ⟨tracked.origin, change tracked.object⟩

instance [Recyclable α] : Recyclable (Tracked α) where
  fresh := ofFactory (fun _ => Recyclable.fresh) 0
  recycle := alter Recyclable.recycle

end Tracked

def PoolCall.tracked (n : Nat) : PoolCall α → PoolCall (Tracked α)
  | .take => .take
  | .acquire => .acquire
  | .bring object => .bring ⟨.brought n, object⟩
  | .alter place change => .alter place (Tracked.alter change)
  | .detach place => .detach place
  | .put place => .put place
  | .drop place => .drop place

theorem map_modify (f : α → β) {change : α → α} (image : β → β)
    (same : ∀ a, f (change a) = image (f a)) (list : List α) (place : Nat) :
    (list.modify place change).map f = (list.map f).modify place image := by
  apply List.ext_getElem?
  intro i
  simp only [List.getElem?_map, List.getElem?_modify]
  cases list[i]? with
  | none => rfl
  | some a => by_cases here : place = i <;> simp [here, same]

/-! Without the origins a run is what it was. -/

def Holding.bare : Holding (Tracked α) → Holding α
  | .owned tracked => .owned tracked.object
  | .lent tracked => .lent tracked.object

def PoolEvent.bare (event : PoolEvent (Tracked α)) : PoolEvent α :=
  ⟨event.kind, event.object.object, event.idle⟩

def Pool.bare (pool : Pool (Tracked α)) : Pool α :=
  ⟨pool.capacity, pool.idle.map Tracked.object, pool.created, pool.reused, pool.discarded⟩

theorem Pool.bare_take (pool : Pool (Tracked α)) (make : Tracked α) :
    pool.bare.take make.object = ((pool.take make).1.object, (pool.take make).2.bare) := by
  cases idle : pool.idle with
  | nil =>
    have none : pool.bare.idle = [] := congrArg (List.map Tracked.object) idle
    rw [take_of_nil idle, take_of_nil none]
    rfl
  | cons first others =>
    have waits : pool.bare.idle = first.object :: others.map Tracked.object :=
      congrArg (List.map Tracked.object) idle
    rw [take_of_cons idle, take_of_cons waits]
    rfl

theorem Pool.bare_put [Recyclable α] (pool : Pool (Tracked α)) (tracked : Tracked α) :
    (pool.put tracked).bare = pool.bare.put tracked.object := by
  have length : pool.bare.idle.length = pool.idle.length := List.length_map ..
  by_cases room : pool.idle.length < pool.capacity
  · rw [put_of_lt room, put_of_lt (length.trans_lt room)]
    simp [bare, Recyclable.recycle, Tracked.alter]
  · have full : pool.capacity ≤ pool.idle.length := Nat.le_of_not_lt room
    have fullBare : pool.bare.capacity ≤ pool.bare.idle.length := full.trans_eq length.symm
    rw [put_of_le full, put_of_le fullBare]
    rfl

namespace PoolRun

def bare (run : PoolRun (Tracked α)) : PoolRun α :=
  ⟨run.pool.bare, run.held.map Holding.bare, run.log.map PoolEvent.bare⟩

variable {run : PoolRun (Tracked α)}

theorem bare_stats_idle (run : PoolRun (Tracked α)) :
    run.bare.pool.stats.idle = run.pool.stats.idle := List.length_map ..

theorem bare_receive (factory : Nat → α) {hold : Tracked α → Holding (Tracked α)}
    {plain : α → Holding α} (same : ∀ tracked, (hold tracked).bare = plain tracked.object) :
    (run.receive (Tracked.ofFactory factory) hold).bare = run.bare.receive factory plain := by
  have taken : run.bare.pool.take (factory run.bare.pool.created) = _ :=
    run.pool.bare_take (Tracked.ofFactory factory run.pool.created)
  simp only [receive, taken, bare_stats_idle]
  simp [bare, same, PoolEvent.bare]

theorem bare_onHeld {place : Nat} {change : Holding (Tracked α) → Holding (Tracked α)}
    {plain : Holding α → Holding α} (same : ∀ holding, (change holding).bare = plain holding.bare) :
    (run.onHeld place change).bare = run.bare.onHeld place plain := by
  have held := map_modify Holding.bare plain same run.held place
  exact congrArg (PoolRun.mk run.pool.bare · (run.log.map PoolEvent.bare)) held

theorem bare_part {place : Nat} {pool : Pool (Tracked α)} {back : List (Tracked α)} :
    (run.part place pool back).bare = run.bare.part place pool.bare (back.map Tracked.object) := by
  have held : (run.held.eraseIdx place).map Holding.bare =
      (run.held.map Holding.bare).eraseIdx place := (List.eraseIdx_map ..).symm
  simp only [part, bare_stats_idle]
  simp [bare, held, PoolEvent.bare]

variable [Recyclable α]

theorem bare_call (factory : Nat → α) (run : PoolRun (Tracked α)) (n : Nat) (c : PoolCall α) :
    (run.call (Tracked.ofFactory factory) (c.tracked n)).bare = run.bare.call factory c := by
  have found (place : Nat) : run.bare.held[place]? = run.held[place]?.map Holding.bare :=
    List.getElem?_map ..
  cases c with
  | take => exact bare_receive factory fun _ => rfl
  | acquire => exact bare_receive factory fun _ => rfl
  | bring object => simp [PoolCall.tracked, call, bare, Holding.bare]
  | alter place change => exact bare_onHeld fun holding => by cases holding <;> rfl
  | detach place => exact bare_onHeld fun holding => by cases holding <;> rfl
  | put place =>
    simp only [PoolCall.tracked, call, found]
    rcases run.held[place]? with _ | ⟨tracked⟩ | ⟨tracked⟩
    · rfl
    · exact bare_part.trans (by rw [Pool.bare_put]; rfl)
    · rfl
  | drop place =>
    simp only [PoolCall.tracked, call, found]
    rcases run.held[place]? with _ | ⟨tracked⟩ | ⟨tracked⟩
    · rfl
    · exact bare_part
    · exact bare_part.trans (by rw [Holding.letGo, Pool.bare_put]; rfl)

def tracked (capacity : Nat) (factory : Nat → α) (history : List (PoolCall α)) :
    PoolRun (Tracked α) :=
  (start capacity).after (Tracked.ofFactory factory) (history.mapIdx PoolCall.tracked)

theorem tracked_concat (capacity : Nat) (factory : Nat → α) (history : List (PoolCall α))
    (last : PoolCall α) : tracked capacity factory (history ++ [last]) =
      (tracked capacity factory history).call (Tracked.ofFactory factory)
        (last.tracked history.length) := by
  rw [tracked, List.mapIdx_concat, after_concat, tracked]

theorem bare_tracked (capacity : Nat) (factory : Nat → α) (history : List (PoolCall α)) :
    (tracked capacity factory history).bare = (start capacity).after factory history := by
  induction history using List.reverseRecOn with
  | nil => rfl
  | append_singleton history last ih => rw [tracked_concat, bare_call, ih, after_concat]

end PoolRun

/-! No origin is found twice. -/

def Holding.origin (holding : Holding (Tracked α)) : Tracked.Origin := holding.object.origin

def Tracked.Origin.Before (made calls : Nat) : Tracked.Origin → Prop
  | .made n => n < made
  | .brought n => n < calls

theorem Tracked.Origin.Before.mono {made calls more later : Nat} {origin : Tracked.Origin}
    (before : origin.Before made calls) (grown : made ≤ more) (passed : calls ≤ later) :
    origin.Before more later := by
  cases origin with
  | made n => exact Nat.lt_of_lt_of_le before grown
  | brought n => exact Nat.lt_of_lt_of_le before passed

namespace PoolRun

def origins (run : PoolRun (Tracked α)) : List Tracked.Origin :=
  run.held.map Holding.origin ++ run.pool.idle.map Tracked.origin

/-- No object is in two places, and each is from the run's past of `calls` calls. -/
structure Apart (calls : Nat) (run : PoolRun (Tracked α)) : Prop where
  nodup : run.origins.Nodup
  before : ∀ origin ∈ run.origins, origin.Before run.pool.created calls

namespace Apart

variable {calls : Nat} {run next : PoolRun (Tracked α)}

theorem of_subperm (apart : run.Apart calls) (fewer : next.origins.Subperm run.origins)
    (created : next.pool.created = run.pool.created) : next.Apart (calls + 1) := by
  constructor
  · obtain ⟨list, perm, sublist⟩ := fewer
    exact perm.nodup_iff.1 (sublist.nodup apart.nodup)
  · intro origin member
    exact (apart.before origin (fewer.subset member)).mono created.ge (Nat.le_succ calls)

theorem of_new (apart : run.Apart calls) {origin : Tracked.Origin}
    (more : next.origins.Perm (origin :: run.origins))
    (new : ¬ origin.Before run.pool.created calls)
    (now : origin.Before next.pool.created (calls + 1))
    (created : run.pool.created ≤ next.pool.created) : next.Apart (calls + 1) := by
  constructor
  · rw [more.nodup_iff, List.nodup_cons]
    exact ⟨fun member => new (apart.before origin member), apart.nodup⟩
  · intro other member
    rcases List.mem_cons.1 (more.subset member) with rfl | old
    · exact now
    · exact (apart.before other old).mono created (Nat.le_succ calls)

theorem receive (apart : run.Apart calls) (factory : Nat → α)
    {hold : Tracked α → Holding (Tracked α)}
    (same : ∀ tracked, (hold tracked).origin = tracked.origin) :
    (run.receive (Tracked.ofFactory factory) hold).Apart (calls + 1) := by
  cases idle : run.pool.idle with
  | nil =>
    -- What the factory makes now is none of those it made before.
    have created : (run.receive (Tracked.ofFactory factory) hold).pool.created =
        run.pool.created + 1 := by
      simp [PoolRun.receive, Pool.take_of_nil idle]
    have more : (run.receive (Tracked.ofFactory factory) hold).origins.Perm
        (.made run.pool.created :: run.origins) := by
      simp [PoolRun.receive, Pool.take_of_nil idle, origins, same, Tracked.ofFactory, idle]
    apply apart.of_new more
    · simp [Tracked.Origin.Before]
    · simp [Tracked.Origin.Before, created]
    · omega
  | cons first others =>
    apply apart.of_subperm
    · apply List.Perm.subperm
      simp [PoolRun.receive, Pool.take_of_cons idle, origins, same, idle]
    · simp [PoolRun.receive, Pool.take_of_cons idle]

theorem bring (apart : run.Apart calls) (object : α) :
    PoolRun.Apart (calls + 1)
      { run with held := run.held ++ [.owned ⟨.brought calls, object⟩] } := by
  have more : (PoolRun.mk run.pool (run.held ++ [.owned ⟨.brought calls, object⟩])
      run.log).origins.Perm (.brought calls :: run.origins) := by
    simp [origins, Holding.origin, Holding.object]
  apply apart.of_new more
  · simp [Tracked.Origin.Before]
  · simp [Tracked.Origin.Before]
  · exact Nat.le_refl _

theorem onHeld (apart : run.Apart calls) {place : Nat}
    {change : Holding (Tracked α) → Holding (Tracked α)}
    (same : ∀ holding, (change holding).origin = holding.origin) :
    (run.onHeld place change).Apart (calls + 1) := by
  have held := map_modify Holding.origin id same run.held place
  rw [List.modify_id] at held
  have kept : (run.onHeld place change).origins = run.origins := congrArg (· ++ _) held
  exact apart.of_subperm (List.Perm.of_eq kept).subperm rfl

theorem part (apart : run.Apart calls) {place : Nat} {holding : Holding (Tracked α)}
    (held : run.held[place]? = some holding) {pool : Pool (Tracked α)} {back : List (Tracked α)}
    (idle : (pool.idle.map Tracked.origin).Subperm
      (holding.origin :: run.pool.idle.map Tracked.origin))
    (created : pool.created = run.pool.created) : (run.part place pool back).Apart (calls + 1) := by
  apply apart.of_subperm _ created
  obtain ⟨bound, rfl⟩ := List.getElem?_eq_some_iff.1 held
  have moved := (List.getElem_cons_eraseIdx_perm bound).map Holding.origin
  refine ((List.subperm_append_left _).2 idle).trans (List.Perm.subperm ?_)
  exact List.perm_middle.trans (moved.append_right _)

variable [Recyclable α]

theorem ends (apart : run.Apart calls) {place : Nat} (ends : run.Ends place next) :
    next.Apart (calls + 1) := by
  cases ends with
  | unchanged => exact apart.of_subperm (List.Subperm.refl _) rfl
  | vanished held => exact apart.part held List.Subperm.cons_self rfl
  | returned held =>
    rename_i holding
    by_cases room : run.pool.idle.length < run.pool.capacity
    · rw [Pool.put_of_lt room]
      refine apart.part held (List.Perm.subperm ?_) rfl
      simp [Recyclable.recycle, Tracked.alter, Holding.origin]
    · rw [Pool.put_of_le (Nat.le_of_not_lt room)]
      exact apart.part held List.Subperm.cons_self rfl

theorem call (apart : run.Apart calls) (factory : Nat → α) (c : PoolCall α) :
    (run.call (Tracked.ofFactory factory) (c.tracked calls)).Apart (calls + 1) := by
  cases c with
  | take => exact apart.receive factory fun _ => rfl
  | acquire => exact apart.receive factory fun _ => rfl
  | bring object => exact apart.bring object
  | alter place change => exact apart.onHeld fun holding => by cases holding <;> rfl
  | detach place => exact apart.onHeld fun _ => rfl
  | put place => exact apart.ends (run.ends_put _ place)
  | drop place => exact apart.ends (run.ends_drop _ place)

theorem tracked (capacity : Nat) (factory : Nat → α) (history : List (PoolCall α)) :
    (PoolRun.tracked capacity factory history).Apart history.length := by
  induction history using List.reverseRecOn with
  | nil => constructor <;> simp [PoolRun.tracked, after, start, origins, Pool.ofCapacity]
  | append_singleton history last ih =>
    rw [tracked_concat, List.length_append, List.length_singleton]
    exact ih.call factory last

end Apart

variable [Recyclable α]

/-- The statistics of a pool are the counts of what passed between it and its borrowers. What it
kept is lent again emptied and in turn, what it made is lent as the factory made it; and followed by
their origins the objects are the same ones, none of them held or idle twice. -/
theorem lending_after (capacity : Nat) (factory : Nat → α) (history : List (PoolCall α)) :
    let room := max capacity 1
    let run := (start capacity).after factory history
    let followed := tracked capacity factory history
    run.pool.stats.created + run.pool.stats.reused = history.countP PoolCall.borrows ∧
      run.log.returned.length =
        run.pool.stats.reused + run.pool.stats.idle + run.pool.stats.discarded ∧
      run.pool.stats.idle ≤ room ∧
      (run.log.refused room).length = run.pool.stats.discarded ∧
      (∀ object, run.pool.put object = if run.pool.stats.idle = room
        then { run.pool with discarded := run.pool.discarded + 1 }
        else { run.pool with idle := run.pool.idle ++ [Recyclable.recycle object] }) ∧
      run.log.made = (List.range run.pool.stats.created).map factory ∧
      (run.log.kept room).map Recyclable.recycle = run.log.reused ++ run.pool.idle ∧
      followed.bare = run ∧
      (followed.log.kept room).map Recyclable.recycle =
        followed.log.reused ++ followed.pool.idle ∧
      followed.origins.Nodup := by
  intro room run followed
  have accounts := PoolLog.Accounts.after factory capacity history
  have alike := PoolLog.Accounts.after (Tracked.ofFactory factory) capacity
    (history.mapIdx PoolCall.tracked)
  refine ⟨accounts.borrowed, accounts.returned, accounts.bounded, accounts.refused, ?_,
    accounts.made, accounts.queue, bare_tracked .., alike.queue, (Apart.tracked ..).nodup⟩
  intro object
  have capacity : run.pool.capacity = room := accounts.capacity
  have bounded : run.pool.idle.length ≤ room := accounts.bounded
  by_cases full : run.pool.idle.length = room
  · rw [Pool.put_of_le (capacity.trans full.symm).le]
    exact (if_pos full).symm
  · rw [Pool.put_of_lt (by omega)]
    exact (if_neg full).symm

example : ((start 1).after (fun n => [n]) [.acquire, .alter 0 (7 :: ·), .drop 0, .take, .acquire,
    .detach 1, .drop 1, .put 0] : PoolRun (List Nat)).log.map (fun event => event.object) =
      [[0], [7, 0], [], [1], []] := rfl

end PoolRun

end Karst
