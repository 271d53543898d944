import AiArtifactStore.Foundation.Ancestry
import AiArtifactStore.Metadata.Advance
import AiArtifactStore.Metadata.ForeignKeys

/-!
# Lines of versions

A version may name an earlier version of its artifact as its parent.  The rows
are written in that order and their parents never change, so no cycle forms, not
even among content-addressed ids that collide.
-/

namespace AiArtifactStore.Metadata

open AiArtifactStore.Foundation
open AiArtifactStore.Identity
open Relation

def ParentVersion (db : Db) : ContentId → ContentId → Prop :=
  ParentOf db.artifactVersions VersionRow.parentVersionId

/-- Parents are written before their children. -/
def ParentsFirst (db : Db) : Prop :=
  RefersBack VersionRow.versionId VersionRow.parentVersionId db.artifactVersions.rows

variable {env : Environment} {db db' : Db} {op : ServiceOp}

theorem parentsFirst_finalized {row : SessionRow} {d : ObjectLayoutDescriptor} {createdAt : Int}
    {table : Table ChunkMetadata.chunkId} (hfinalizes : Finalizes env db row d createdAt table)
    (hkeys : ForeignKeys db) (h : ParentsFirst db) :
    ParentsFirst (finalizedDb env db row d createdAt table) := by
  refine RefersBack.upsert h ?_ ?_
  · intro stored hstored hid
    rcases hfinalizes.version with ⟨hnone, -, -⟩ | ⟨state, hsome⟩
    · exact absurd hid (Table.find?_eq_none.mp hnone stored hstored)
    · obtain rfl : stored = _ := Table.key_inj hstored (Table.mem_of_find? hsome) hid
      rfl
  · intro ancestor hparent
    have hrow : row ∈ db.uploadSessions := Table.mem_of_find? hfinalizes.stored
    have hsession : row.session.parentVersionId = some ancestor := hparent
    obtain ⟨version, hversion, hkey⟩ := hkeys.uploadSessionsParentVersion row hrow
      (row.session.artifactId, ancestor) (by simp [hsession])
    exact ⟨version, hversion, congrArg Prod.snd hkey⟩

theorem parentsFirst_transact {reply : Reply} (htransact : transact env db op = .ok (reply, db'))
    (h : ForeignKeys db ∧ ParentsFirst db) : ForeignKeys db' ∧ ParentsFirst db' := by
  refine ⟨foreignKeys_transact htransact h.1, ?_⟩
  cases transact_effect htransact with
  | finalized hfinalizes => exact parentsFirst_finalized hfinalizes h.1 h.2
  | @gcCompleted run completed stats hcompletes =>
      obtain ⟨_, _, _, _, _, heq⟩ := completedGcDb_frame db run completed
      simp only [heq]
      exact h.2
  | _ => exact h.2

theorem parentsFirst_of_reachable (h : Reachable env db) : ParentsFirst db := by
  have hboth : ForeignKeys db ∧ ParentsFirst db :=
    Evolves.invariant h (fun _ _ _ _ _ => parentsFirst_transact)
      ⟨foreignKeys_initial, refersBack_nil⟩
  exact hboth.2

theorem parent_sameArtifact (h : ForeignKeys db) {ancestor : ContentId} {child : VersionRow}
    (hchild : child ∈ db.artifactVersions)
    (hparent : ParentVersion db ancestor child.versionId) :
    ∃ row ∈ db.artifactVersions, row.versionId = ancestor ∧ row.artifactId = child.artifactId := by
  obtain ⟨stored, hstored, hkey, hparent⟩ := hparent
  obtain rfl : stored = child := Table.key_inj hstored hchild hkey
  obtain ⟨row, hrow, hsame⟩ := h.artifactVersionsParent stored hstored
    (stored.artifactId, ancestor) (by simp [hparent])
  exact ⟨row, hrow, congrArg Prod.snd hsame, congrArg Prod.fst hsame⟩

theorem ancestor_sameArtifact (h : ForeignKeys db) {ancestor : ContentId} {version : VersionRow}
    (hversion : version ∈ db.artifactVersions)
    (hline : ReflTransGen (ParentVersion db) ancestor version.versionId) :
    ∃ row ∈ db.artifactVersions, row.versionId = ancestor ∧ row.artifactId = version.artifactId := by
  induction hline using ReflTransGen.head_induction_on with
  | refl => exact ⟨version, hversion, rfl, rfl⟩
  | head hparent _ ih =>
      obtain ⟨child, hchild, rfl, hsame⟩ := ih
      obtain ⟨row, hrow, hid, hartifact⟩ := parent_sameArtifact h hchild hparent
      exact ⟨row, hrow, hid, hartifact.trans hsame⟩

/-- The lines of a database: without cycles, within one artifact, each from a version without
a parent. -/
structure Lineages (db : Db) : Prop where
  wellFounded : WellFounded (ParentVersion db)
  ancestors : ∀ version ∈ db.artifactVersions, ∀ ancestor,
    ReflTransGen (ParentVersion db) ancestor version.versionId →
      ∃ row ∈ db.artifactVersions, row.versionId = ancestor ∧ row.artifactId = version.artifactId
  roots : ∀ version ∈ db.artifactVersions, ∃ root ∈ db.artifactVersions,
    root.parentVersionId = none ∧ root.artifactId = version.artifactId ∧
      ReflTransGen (ParentVersion db) root.versionId version.versionId

theorem lineages_of_keys (hfirst : ParentsFirst db) (hkeys : ForeignKeys db) : Lineages db := by
  refine ⟨wellFounded_parentOf hfirst, fun version hversion ancestor hline =>
    ancestor_sameArtifact hkeys hversion hline, fun version hversion => ?_⟩
  obtain ⟨root, hroot, hnone, hline⟩ := exists_root hfirst hversion
  obtain ⟨row, hrow, hid, hartifact⟩ := ancestor_sameArtifact hkeys hversion hline
  obtain rfl : row = root := Table.key_inj hrow hroot hid
  exact ⟨row, hroot, hnone, hartifact, hline⟩

/-- Later operations neither add an ancestor to a stored version nor take one away. -/
theorem line_evolves {allowed : ServiceOp → Prop} (hfirst : ParentsFirst db)
    (he : Evolves env allowed db db') {version : VersionRow} (hversion : version ∈ db.artifactVersions)
    {ancestor : ContentId} :
    ReflTransGen (ParentVersion db') ancestor version.versionId ↔
      ReflTransGen (ParentVersion db) ancestor version.versionId := by
  refine line_iff hfirst (fun row hrow => ?_) hversion
  obtain ⟨row', hrow', hkey, hadvance⟩ := (recordsAdvance he).artifactVersions row hrow
  exact ⟨row', hrow', hkey, by rw [hadvance.1]⟩

/-- Version lines are well founded, stay within one artifact, start at a version without a
parent and are never rewritten. -/
theorem lineages_of_reachable (h : Reachable env db) :
    Lineages db ∧ ∀ db', Evolves env (fun _ => True) db db' →
      ∀ version ∈ db.artifactVersions, ∀ ancestor,
        ReflTransGen (ParentVersion db') ancestor version.versionId ↔
          ReflTransGen (ParentVersion db) ancestor version.versionId :=
  ⟨lineages_of_keys (parentsFirst_of_reachable h) (foreignKeys_of_reachable h),
    fun _ he _ hversion _ => line_evolves (parentsFirst_of_reachable h) he hversion⟩

theorem lineages_afterPush :
    let db := afterOps Sample.env Db.initial (Sample.pushOps ++ Sample.childOps)
    ParentVersion db Sample.versionId Sample.childId ∧ Lineages db ∧
      ∀ db', Evolves Sample.env (fun _ => True) db db' →
        ∀ version ∈ db.artifactVersions, ∀ ancestor,
          ReflTransGen (ParentVersion db') ancestor version.versionId ↔
            ReflTransGen (ParentVersion db) ancestor version.versionId := by
  intro db
  have hparent : ∃ version ∈ db.artifactVersions.rows, version.versionId = Sample.childId ∧
      version.parentVersionId = some Sample.versionId := by
    decide +kernel
  obtain ⟨version, hversion, hid, hparent⟩ := hparent
  exact ⟨⟨version, Table.mem_rows.mp hversion, hid, hparent⟩,
    lineages_of_reachable (reachable_afterOps _ _)⟩

end AiArtifactStore.Metadata
