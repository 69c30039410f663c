import MuduoChat.ConnMutex
import MuduoChat.Finishing

/-!
No handler waits for ever: whatever the worker threads and the Redis threads of any number of
servers run, and in whichever order they go on, every handler comes to its end and all mutexes are
free then. A handler waits only in `lock` of _connMutex, and the owner of the mutex is never
waiting there.
-/

namespace MuduoChat.HandlersFinish
open ChatService ConnMutex Interleaving
variable {S C : Type} [DecidableEq S] [DecidableEq C]

/-- An operation other than the lock of a mutex that is taken can be done. -/
theorem performs (op : Op S C) (shared : Shared S C)
    (free : ∀ server, op = .lock server → shared.connMutex server = false) :
    ∃ choice result after, perform choice op shared = some (result, after) := by
  cases op with
  | lock server => exact ⟨0, _, _, if_neg (by simp [free server rfl])⟩
  | findConn server conn =>
      -- the search meets some entry of the connection first, or there is none
      cases ids : ((shared.userConnMap server).entries.filter
        fun entry => entry.2 = conn).map (·.1) with
      | nil => exact ⟨0, none, shared, by simp [perform, ids]⟩
      | cons id rest => exact ⟨id, some id, shared, by simp [perform, ids]⟩
  | subscribe server channel =>
      by_cases already : (server, channel) ∈ shared.subscribed
      · exact ⟨0, (), shared, if_pos already⟩
      · exact ⟨0, (), _, if_neg already⟩
  | insertUser user | createGroup name desc => exact ⟨0, none, shared, by simp [perform]⟩
  | _ => exact ⟨0, _, _, rfl⟩

/-- Every handler keeps to its protocol, and the owner of a mutex is in its critical section. -/
def Tidy (pool : Servers S C) : Prop := ∃ owners, Noted monitor final (Kept false) ⟨pool, owners⟩

theorem step_tidy (before after : Servers S C) (action : Action (Job S C) Int) (tidy : Tidy before)
    (stepped : servers.step before action = some after) : Tidy after := by
  obtain ⟨owners, noted⟩ := tidy
  have watched : ∃ next : State S C, ConnMutex.step ⟨before, owners⟩ action = some next ∧
      next.pool = after := by
    simp [ConnMutex.step, System.watch, stepped]
  obtain ⟨⟨pool, notes⟩, taken, rfl⟩ := watched
  exact ⟨notes, step_kept false _ _ action noted (fun tight => by cases tight) taken⟩

/-- While one handler is not finished, some handler can go on: this one, or the owner of the mutex
it waits for. -/
theorem tidy_moves (pool : Servers S C) (tidy : Tidy pool) (busy : ¬ Quiet pool) :
    ∃ after, servers.Goes pool after := by
  obtain ⟨owners, marks, tied, inv, _⟩ := tidy
  have goes (thread : Nat) (job : Job S C) (op : Op S C)
      (about : pool.aboutTo thread = some (job, op))
      (free : ∀ server, op = .lock server → pool.shared.connMutex server = false) :
        ∃ after, servers.Goes pool after := by
    obtain ⟨choice, result, shared, performed⟩ := performs op pool.shared free
    exact goes_about servers pool thread job op about choice result shared performed
  obtain ⟨⟨job, program⟩, member, unfinished⟩ : ∃ entry ∈ pool.threads, entry.2.head ≠ none := by
    simpa [Quiet] using busy
  obtain ⟨thread, found⟩ := List.mem_iff_getElem?.mp member
  cases program with
  | done value => exact absurd rfl unfinished
  | act op rest =>
      have about : pool.aboutTo thread = some (job, op) := by simp [Pool.aboutTo, found, Prog.head]
      by_cases waits : ∃ server, op = .lock server ∧ pool.shared.connMutex server = true
      · obtain ⟨server, rfl, taken⟩ := waits
        have owned : (owners server).isSome = true := (inv.mutex server).symm.trans taken
        obtain ⟨owner, own⟩ := Option.isSome_iff_exists.mp owned
        obtain ⟨mark, here, holds⟩ := Option.bind_eq_some_iff.mp ((inv.owner server owner).mp own)
        obtain ⟨⟨other, left⟩, inside, follows⟩ :=
          tied_thread monitor final marks pool.threads tied mark
          (List.mem_of_getElem? here)
        -- a mark that holds a mutex is not final, and allows no lock
        have unended (value : Unit) : ¬ final mark := fun ended => by
          rw [final, holds] at ended
          cases ended
        obtain ⟨next, head, allowed⟩ := follows_head (monitor other) left
          (fun _ => final) mark unended follows
        obtain ⟨place, there⟩ := List.mem_iff_getElem?.mp inside
        refine goes place other next (by simp [Pool.aboutTo, there, head]) fun locked same => ?_
        subst same
        cases mark with
        | inside _ | found _ _ _ => exact allowed.elim
        | outside | loose => cases holds
      · exact goes thread job op about fun server same => by
          simpa using fun taken => waits ⟨server, same, taken⟩

omit [DecidableEq S] [DecidableEq C] in
/-- Where all handlers are finished, nobody owns a mutex. -/
theorem quiet_free (pool : Servers S C) (tidy : Tidy pool) (quiet : Quiet pool) (server : S) :
    pool.shared.connMutex server = false := by
  obtain ⟨owners, marks, tied, inv, _⟩ := tidy
  by_contra taken
  have owned : (owners server).isSome = true := (inv.mutex server).symm.trans (by simpa using taken)
  obtain ⟨owner, own⟩ := Option.isSome_iff_exists.mp owned
  obtain ⟨mark, here, holds⟩ := Option.bind_eq_some_iff.mp ((inv.owner server owner).mp own)
  have ended := quiet_final monitor final marks pool tied quiet mark (List.mem_of_getElem? here)
  rw [final, holds] at ended
  cases ended

/-- From every state that the servers can come to, whichever handler goes on each time, all handlers
come to their end, and every mutex is free then. -/
theorem handlers_finish (first pool : Servers S C) (idle : first.threads = [])
    (free : ∀ server, first.shared.connMutex server = false)
    (trace : List (Action (Job S C) Int))
    (ran : Transition.run servers.step first trace = some pool) :
    servers.Comes (fun last => Quiet last ∧ ∀ server, last.shared.connMutex server = false) pool :=
      by
  have begun : Tidy first := ⟨fun _ => none,
    begins_kept false ⟨first, fun _ => none⟩ ⟨idle, free, fun _ => rfl⟩⟩
  have tidy : Tidy pool := Transition.run_always servers.step Tidy
    (fun before action after kept stepped =>
      step_tidy before after action kept stepped) first pool trace begun ran
  refine comes_mono servers _ _ (fun last ended => ⟨ended.1, quiet_free last ended.2 ended.1⟩) pool
    (comes_quiet servers Tidy ?_ tidy_moves pool tidy)
  rintro before after kept ⟨thread, choice, stepped⟩
  exact step_tidy before after _ kept stepped

/-- Two handlers of one server: the one that asks for the mutex waits until the other has unlocked
it. -/
theorem handlers_finish_waiting : ∃ pool, Transition.run servers.step logged.pool
      [.spawn (.oneChat () 8 1 [5]), .spawn (.loginout () 7 1), .step 0 0] = some pool ∧
    pool.shared.connMutex () = true ∧ pool.aboutTo 1 = some (.loginout () 7 1, .lock ()) ∧
    servers.Comes (fun last => Quiet last ∧ ∀ server, last.shared.connMutex server = false) pool :=
  ⟨_, rfl, rfl, rfl, handlers_finish logged.pool _ rfl (fun _ => rfl)
    [.spawn (.oneChat () 8 1 [5]), .spawn (.loginout () 7 1), .step 0 0] rfl⟩

end MuduoChat.HandlersFinish
