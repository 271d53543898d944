/-!
# Sessions of a server

A server reads one request on each connection, handles it in one critical section, and
writes its response.  The steps of different connections interleave.  The events of a run
are a sequential history that explains the state, and the response on every connection by
the request that was read on it.
-/

namespace AiArtifactStore.Foundation

inductive Session (ρ α : Type) where
  | absent
  | reading
  | received (request : ρ)
  | writing (response : α)
  | closed

structure Server (σ ρ α : Type) where
  state : σ
  sessions : Nat → Session ρ α

/-- A connection has read its request, or the handler has run on it. -/
inductive Event (κ ρ : Type) where
  | read (id : Nat) (request : ρ)
  | handled (id : Nat) (input : κ) (request : ρ)

/-- The handler of a server, with what it is told besides the request, and the limit of
the requests that it gets to see. -/
structure ServerConfig (κ σ ρ α : Type) where
  handler : κ → ρ → σ → α × σ
  accepts : ρ → Prop
  payloadTooLarge : α

variable {κ σ ρ α : Type}

namespace Server

def setSession (server : Server σ ρ α) (id : Nat) (session : Session ρ α) : Server σ ρ α :=
  { server with sessions := fun other => if other = id then session else server.sessions other }

inductive Step (config : ServerConfig κ σ ρ α) (server : Server σ ρ α) :
    List (Event κ ρ) → Server σ ρ α → Prop
  | accept {id : Nat} (h : server.sessions id = .absent) :
      Step config server [] (server.setSession id .reading)
  | read {id : Nat} {request : ρ} (h : server.sessions id = .reading)
      (haccepts : config.accepts request) :
      Step config server [.read id request] (server.setSession id (.received request))
  | bodyLimit {id : Nat} {request : ρ} (h : server.sessions id = .reading)
      (haccepts : ¬config.accepts request) :
      Step config server [.read id request] (server.setSession id (.writing config.payloadTooLarge))
  | readError {id : Nat} (h : server.sessions id = .reading) :
      Step config server [] (server.setSession id .closed)
  | handle {id : Nat} {request : ρ} (input : κ) (h : server.sessions id = .received request) :
      Step config server [.handled id input request]
        { (server.setSession id (.writing (config.handler input request server.state).1)) with
          state := (config.handler input request server.state).2 }
  | write {id : Nat} {response : α} (h : server.sessions id = .writing response) :
      Step config server [] (server.setSession id .closed)

/-- A run, with its events in order. -/
inductive Runs (config : ServerConfig κ σ ρ α) (start : Server σ ρ α) :
    List (Event κ ρ) → Server σ ρ α → Prop
  | refl : Runs config start [] start
  | step {events more : List (Event κ ρ)} {server next : Server σ ρ α}
      (hrun : Runs config start events server) (hstep : Step config server more next) :
      Runs config start (events ++ more) next

def perform (config : ServerConfig κ σ ρ α) (state : σ) : Event κ ρ → σ
  | .read _ _ => state
  | .handled _ input request => (config.handler input request state).2

/-- The state after events, one after another. -/
def replay (config : ServerConfig κ σ ρ α) (state : σ) (events : List (Event κ ρ)) : σ :=
  events.foldl (perform config) state

def readBy? (id : Nat) : Event κ ρ → Option ρ
  | .read other request => if other = id then some request else none
  | .handled _ _ _ => none

def reads (id : Nat) (events : List (Event κ ρ)) : List ρ := events.filterMap (readBy? id)

/-- The request was too large, or was handled at its place among the events. -/
def Answers (config : ServerConfig κ σ ρ α) (state : σ) (events : List (Event κ ρ)) (id : Nat)
    (request : ρ) (response : α) : Prop :=
  (¬config.accepts request ∧ response = config.payloadTooLarge) ∨
    ∃ before input after, events = before ++ .handled id input request :: after ∧
      config.accepts request ∧
        response = (config.handler input request (replay config state before)).1

/-- The response is the one of the only request that the connection has read. -/
def Explained (config : ServerConfig κ σ ρ α) (state : σ) (events : List (Event κ ρ)) (id : Nat)
    (response : α) : Prop :=
  ∃ request, reads id events = [request] ∧ Answers config state events id request response

def Fresh (server : Server σ ρ α) : Prop :=
  ∀ id, server.sessions id = .absent ∨ server.sessions id = .reading

variable {config : ServerConfig κ σ ρ α} {server next start : Server σ ρ α}
  {events more : List (Event κ ρ)} {state : σ} {id : Nat} {session : Session ρ α} {request : ρ}
  {response : α}

theorem replay_append :
    replay config state (events ++ more) = replay config (replay config state events) more :=
  List.foldl_append

theorem reads_append : reads id (events ++ more) = reads id events ++ reads id more :=
  List.filterMap_append

theorem reads_read_self : reads id [(.read id request : Event κ ρ)] = [request] := by
  simp [reads, readBy?]

theorem reads_read_of_ne {other : Nat} (h : other ≠ id) :
    reads other [(.read id request : Event κ ρ)] = [] := by
  simp [reads, readBy?, h.symm]

theorem Answers.append (h : Answers config state events id request response)
    (more : List (Event κ ρ)) : Answers config state (events ++ more) id request response := by
  rcases h with h | ⟨before, input, after, rfl, haccepts, h⟩
  · exact .inl h
  · exact .inr ⟨before, input, after ++ more, by simp, haccepts, h⟩

def SessionExplained (config : ServerConfig κ σ ρ α) (state : σ) (events : List (Event κ ρ))
    (id : Nat) : Session ρ α → Prop
  | .absent | .reading => reads id events = []
  | .received request => reads id events = [request] ∧ config.accepts request
  | .writing response => Explained config state events id response
  | .closed => True

theorem SessionExplained.append (h : SessionExplained config state events id session)
    (hmore : reads id more = []) : SessionExplained config state (events ++ more) id session := by
  have hreads : reads id (events ++ more) = reads id events := by
    rw [reads_append, hmore, List.append_nil]
  cases session with
  | absent | reading => exact hreads.trans h
  | received request => exact ⟨hreads.trans h.1, h.2⟩
  | writing response =>
      obtain ⟨request, hrequest, hanswers⟩ := h
      exact ⟨request, hreads.trans hrequest, hanswers.append more⟩
  | closed => trivial

/-- What a run establishes: its events explain the state and every connection. -/
structure Serializes (config : ServerConfig κ σ ρ α) (start : σ) (events : List (Event κ ρ))
    (server : Server σ ρ α) : Prop where
  state : server.state = replay config start events
  sessions : ∀ id, SessionExplained config start events id (server.sessions id)

theorem serializes_fresh (h : start.Fresh) : Serializes config start.state [] start := by
  refine ⟨rfl, fun id => ?_⟩
  rcases h id with h | h
  · rw [h]
    exact List.filterMap_nil
  · rw [h]
    exact List.filterMap_nil

theorem Serializes.extend (h : Serializes config state events server)
    (hothers : ∀ other, other ≠ id → reads other more = [])
    (hsession : SessionExplained config state (events ++ more) id session) :
    Serializes config state (events ++ more)
      { (server.setSession id session) with state := replay config server.state more } := by
  constructor
  · rw [replay_append, ← h.state]
  · intro other
    simp only [setSession]
    split
    · rename_i hsame
      rwa [hsame]
    · rename_i hother
      exact (h.sessions other).append (hothers other hother)

theorem Serializes.step (h : Serializes config state events server)
    (hstep : Step config server more next) : Serializes config state (events ++ more) next := by
  cases hstep with
  | @accept id hsession =>
      have hold := h.sessions id
      rw [hsession] at hold
      exact h.extend (fun _ _ => rfl) (hold.append rfl)
  | @read id request hsession haccepts =>
      have hold := h.sessions id
      rw [hsession] at hold
      refine h.extend (fun _ => reads_read_of_ne) ⟨?_, haccepts⟩
      rw [reads_append, hold, reads_read_self, List.nil_append]
  | @bodyLimit id request hsession haccepts =>
      have hold := h.sessions id
      rw [hsession] at hold
      refine h.extend (fun _ => reads_read_of_ne)
        ⟨request, ?_, .inl ⟨haccepts, rfl⟩⟩
      rw [reads_append, hold, reads_read_self, List.nil_append]
  | readError | write => exact h.extend (fun _ _ => rfl) trivial
  | @handle id request input hsession =>
      have hold := h.sessions id
      rw [hsession] at hold
      refine h.extend (fun _ _ => rfl) ⟨request, ?_, .inr ?_⟩
      · rw [reads_append, hold.1]
        rfl
      · exact ⟨events, input, [], rfl, hold.2, by rw [h.state]⟩

theorem Runs.serializes (hrun : Runs config start events server) (h : start.Fresh) :
    Serializes config start.state events server := by
  induction hrun with
  | refl => exact serializes_fresh h
  | step hrun hstep ih => exact ih.step hstep

theorem replay_changes (config : ServerConfig κ σ ρ α) (state : σ) (events : List (Event κ ρ)) :
    ∃ kept : List (Event κ ρ), kept.Sublist events ∧
      replay config state kept = replay config state events ∧
      ∀ before event after, kept = before ++ event :: after →
        perform config (replay config state before) event ≠ replay config state before := by
  induction events generalizing state with
  | nil => exact ⟨[], List.Sublist.refl _, rfl, fun before event after h => by simp at h⟩
  | cons first rest ih =>
      obtain ⟨kept, hsub, hsame, hchanges⟩ := ih (perform config state first)
      by_cases hfirst : perform config state first = state
      · rw [hfirst] at hsame hchanges
        refine ⟨kept, hsub.cons first, ?_, hchanges⟩
        rw [hsame, ← hfirst]
        simp [replay, hfirst]
      · refine ⟨first :: kept, hsub.cons_cons first, hsame, fun before event after h => ?_⟩
        cases before with
        | nil =>
            obtain ⟨rfl, -⟩ := List.cons.inj h
            exact hfirst
        | cons other before =>
            obtain ⟨rfl, hrest⟩ := List.cons.inj h
            exact hchanges before event after hrest

end Server

end AiArtifactStore.Foundation
