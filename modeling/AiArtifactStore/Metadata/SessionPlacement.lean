import AiArtifactStore.Metadata.RunSnapshots

/-!
# The placement nodes of a session

A session is created over registered nodes, and neither its placement nor a
registration is ever removed.  What is registered is an endpoint to connect to.
-/

namespace AiArtifactStore.Metadata

open AiArtifactStore.Foundation
open AiArtifactStore.Identity

def PlacementRegistered (db : Db) : Prop :=
  ∀ row ∈ db.uploadSessions, ∀ nodeId ∈ row.session.placementNodeIds,
    ∃ node, db.storageNodes.find? nodeId = some node

def EndpointsValid (env : Environment) (db : Db) : Prop :=
  ∀ node ∈ db.storageNodes,
    node.address ≠ "" ∧ env.isNumericAddress node.address = true ∧ node.port ≠ 0

variable {env : Environment} {db db' : Db} {op : ServiceOp}

theorem endpointsValid_transact {reply : Reply} (h : transact env db op = .ok (reply, db'))
    (hvalid : EndpointsValid env db) : EndpointsValid env db' := by
  rcases storageNodes_effect (transact_effect h) with hsame | ⟨node, rfl⟩
  · rw [EndpointsValid, hsame]
    exact hvalid
  · obtain ⟨hregister, -⟩ := done_eq_ok.mp h
    simp only [registerStorageNode, bind_eq_ok, exists_unit, failIf_eq_ok,
      Decidable.not_not] at hregister
    obtain ⟨-, -, ⟨haddress, hnumeric⟩, hport, -, hregister⟩ := hregister
    obtain rfl := Except.ok.inj hregister
    intro stored hstored
    rcases Table.mem_upsert.mp hstored with rfl | ⟨hstored, -⟩
    · exact ⟨haddress, hnumeric, hport⟩
    · exact hvalid stored hstored

theorem endpointsValid_of_reachable (h : Reachable env db) : EndpointsValid env db :=
  Evolves.invariant h (fun _ _ _ _ _ => endpointsValid_transact) fun _ h =>
    absurd h (Table.not_mem_empty _)

theorem find?_storageNodes_effect {nodeId : String} {node : StorageNode} (he : Effect env db op db')
    (h : db.storageNodes.find? nodeId = some node) :
    ∃ node', db'.storageNodes.find? nodeId = some node' := by
  cases he with
  | @nodeRegistered registered =>
      simp only [Table.find?_upsert]
      by_cases hid : registered.nodeId = nodeId
      · exact ⟨registered.stored, by simp [hid]⟩
      · exact ⟨node, by simp [hid, h]⟩
  | @gcCompleted run completed stats hcompletes =>
      obtain ⟨_, _, _, _, _, heq⟩ := completedGcDb_frame db run completed
      rw [heq]
      exact ⟨node, h⟩
  | _ => exact ⟨node, h⟩

theorem uploadSessions_effect {row : SessionRow} (he : Effect env db op db')
    (h : row ∈ db'.uploadSessions) :
    (∃ earlier ∈ db.uploadSessions, earlier.session = row.session) ∨
      ∃ requested, op = .createUploadSession requested ∧ requested.session = row.session ∧
        db.uploadSessions.find? requested.sessionId = none := by
  cases he with
  | @sessionOpened requested hopened =>
      rcases Table.mem_insert.mp h with h | ⟨rfl, -⟩
      · exact .inl ⟨row, h, rfl⟩
      · exact .inr ⟨requested, rfl, rfl, hopened.fresh⟩
  | sessionAborted hrow hopen =>
      rcases Table.mem_upsert.mp h with rfl | ⟨h, -⟩
      · exact .inl ⟨_, hrow, rfl⟩
      · exact .inl ⟨row, h, rfl⟩
  | finalized hfinalizes =>
      rcases Table.mem_upsert.mp h with rfl | ⟨h, -⟩
      · exact .inl ⟨_, Table.mem_of_find? hfinalizes.stored, rfl⟩
      · exact .inl ⟨row, h, rfl⟩
  | @gcCompleted run completed stats hcompletes =>
      obtain ⟨_, _, _, _, _, heq⟩ := completedGcDb_frame db run completed
      rw [heq] at h
      exact .inl ⟨row, h, rfl⟩
  | _ => exact .inl ⟨row, h, rfl⟩

theorem createUploadSession_placement {requested : SessionRow}
    (hfresh : db.uploadSessions.find? requested.sessionId = none)
    (h : createUploadSession db requested = .ok db') :
    ∀ nodeId ∈ requested.session.placementNodeIds,
      ∃ node, db.storageNodes.find? nodeId = some node := by
  simp only [createUploadSession, hfresh, insertUploadSession, bind_eq_ok, exists_unit,
    forEach_eq_ok, checkPlacementNode, orFail_eq_ok] at h
  intro nodeId hnodeId
  obtain ⟨node, hnode, -⟩ := h.2.2.2.1 nodeId hnodeId
  exact ⟨node, hnode⟩

theorem placementRegistered_transact {reply : Reply} (h : transact env db op = .ok (reply, db'))
    (hregistered : PlacementRegistered db) : PlacementRegistered db' := by
  have he := transact_effect h
  intro row hrow nodeId hnodeId
  rcases uploadSessions_effect he hrow with ⟨earlier, hearlier, hsame⟩ |
    ⟨requested, rfl, hsame, hfresh⟩
  · obtain ⟨node, hnode⟩ := hregistered earlier hearlier nodeId (hsame ▸ hnodeId)
    exact find?_storageNodes_effect he hnode
  · obtain ⟨hcreate, -⟩ := done_eq_ok.mp h
    obtain ⟨node, hnode⟩ :=
      createUploadSession_placement hfresh hcreate nodeId (hsame ▸ hnodeId)
    exact find?_storageNodes_effect he hnode

theorem placementRegistered_of_reachable (h : Reachable env db) : PlacementRegistered db :=
  Evolves.invariant h (fun _ _ _ _ _ => placementRegistered_transact) fun _ h =>
    absurd h (Table.not_mem_empty _)

end AiArtifactStore.Metadata
