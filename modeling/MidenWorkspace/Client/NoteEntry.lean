import MidenWorkspace.Client.NoteImport

/-!
Contract: what becomes of the stored notes when others enter the store.

An imported note goes on from the one in the store, by transitions that leave a consumed note as
it is (`GoesOn`). A request replaces only notes that are neither consumed nor authenticated. Owns
these two facts, what they say about the rows that are written (`Upserts`), and the proof that an
import, the transport layer and a request keep the store as it must be (`Stored`) and change its
rows as they may (`Persists`).
-/

namespace MidenWorkspace.Client

open Library (OrderedMap)
open Library.Structured
open NoteUpdateTracker

variable {μ π : Type}

/-! ### Where the notes come from -/

/-- Transitions of a record, which leave a consumed one as it is. -/
structure InputNoteRecord.Moves (scheme : NoteScheme μ π) (before after : InputNoteRecord μ π) :
    Prop where
  keeps : Keeps scheme (fun _ _ => True) before after
  consumed : before.isConsumed = true → after = before

section Moving

variable {scheme : NoteScheme μ π}

theorem InputNoteRecord.Moves.refl (record : InputNoteRecord μ π) : Moves scheme record record :=
  ⟨.refl record, fun _ => rfl⟩

theorem InputNoteRecord.Moves.trans {first second third : InputNoteRecord μ π}
    (before : Moves scheme first second) (after : Moves scheme second third) :
    Moves scheme first third := by
  refine ⟨before.keeps.trans after.keeps, fun consumed => ?_⟩
  have same := before.consumed consumed
  rw [after.consumed (same ▸ consumed), same]

/-- No transition changes the state of a consumed note. -/
theorem InputNoteRecord.moves_withState {record : InputNoteRecord μ π}
    {answer : Except NoteRecordError (Option (InputNoteState μ π))}
    {changed : Option (InputNoteState μ π)}
    (changes : ∀ state, answer = .ok (some state) → Changes scheme (fun _ _ => True) record state)
    (result : liftRecord answer = .ok changed) :
    Moves scheme record (record.withState changed) := by
  obtain rfl := liftRecord_eq_ok result
  have becomes : record.become (.ok changed) = .ok (record.withState changed) := rfl
  refine ⟨keeps_of_become changes becomes, fun consumed => ?_⟩
  cases changed with
  | none => rfl
  | some state =>
      rw [isConsumed, (changes state rfl).1] at consumed
      cases consumed

end Moving

/-- A record to start from: the one of the store, or one that was checked. -/
structure Starts (scheme : NoteScheme μ π) (nullifierOf : NoteId → Nullifier)
    (rows : NoteRows μ π) (start : InputNoteRecord μ π) : Prop where
  fits : Fits scheme nullifierOf start
  stored : ∀ row, rows.inputs[start.id]? = some row → parseInputNote row = start

/-- The note is one of the named ones, and comes by transitions from a record to start from. -/
def GoesOn (scheme : NoteScheme μ π) (nullifierOf : NoteId → Nullifier) (Named : NoteId → Prop)
    (rows : NoteRows μ π) (note : InputNoteRecord μ π) : Prop :=
  ∃ start, Starts scheme nullifierOf rows start ∧ Named start.id ∧ start.Moves scheme note

/-- The stored note that goes with an identifier. -/
def IsPrevious (Named : NoteId → Prop) (rows : NoteRows μ π) (noteId : NoteId)
    (previousNote : Option (InputNoteRecord μ π)) : Prop :=
  previousNote = rows.inputs[noteId]?.map parseInputNote ∧ Named noteId

/-- The details of a request go with their nullifier and with the stored note. -/
structure ValidRequest (nullifierOf : NoteId → Nullifier) (Named : NoteId → Prop)
    (rows : NoteRows μ π) (previousNote : Option (InputNoteRecord μ π)) (details : NoteDetails) :
    Prop where
  previous : IsPrevious Named rows details.id previousNote
  nullifier : details.nullifier = nullifierOf details.id

section Requests

variable {scheme : NoteScheme μ π} {nullifierOf : NoteId → Nullifier} {Named : NoteId → Prop}
  {rows : NoteRows μ π} {context : ImportContext μ π}

theorem starts_of_stored (stored : Stored scheme nullifierOf rows) {noteId : NoteId}
    {row : InputNoteRow μ π} (found : rows.inputs[noteId]? = some row) :
    Starts scheme nullifierOf rows (parseInputNote row) ∧ (parseInputNote row).id = noteId := by
  have own : (parseInputNote row).id = noteId := (stored.wellFormed.inputs noteId row found).1
  refine ⟨⟨stored.inputs noteId row found, fun other foundOther => ?_⟩, own⟩
  rw [own, found] at foundOther
  rw [Option.some.inj foundOther]

/-- The stored note, or else a new record that is expected, is one to start from. -/
theorem ValidRequest.starts (stored : Stored scheme nullifierOf rows)
    {previousNote : Option (InputNoteRecord μ π)} {details : NoteDetails}
    (valid : ValidRequest nullifierOf Named rows previousNote details) {createdAt : Option Nat}
    {metadata : Option μ} {afterBlockNum : BlockNumber} {tag : Option NoteTag}
    {start : InputNoteRecord μ π} (isStart : start =
      previousNote.getD ⟨details, createdAt, .expected metadata afterBlockNum tag⟩) :
    Starts scheme nullifierOf rows start ∧ Named start.id := by
  obtain ⟨⟨previous, named⟩, nullifier⟩ := valid
  cases found : rows.inputs[details.id]? with
  | none =>
      rw [previous, found] at isStart
      subst isStart
      refine ⟨⟨⟨nullifier, trivial⟩, fun row foundRow => ?_⟩, named⟩
      cases found.symm.trans foundRow
  | some row =>
      rw [previous, found] at isStart
      subst isStart
      obtain ⟨starts, own⟩ := starts_of_stored stored found
      exact ⟨starts, own.symm ▸ named⟩

theorem moves_verifyByBlock {currentBlockNum : BlockNumber} {request : ProofRequest μ π}
    {record : InputNoteRecord μ π} {verified : Option (InputNoteState μ π)}
    (result : context.verifyByBlock scheme currentBlockNum request record = .ok verified) :
    record.Moves scheme (record.withState verified) := by
  rw [ImportContext.verifyByBlock] at result
  split at result
  · obtain ⟨header, _, received⟩ := bind_eq_ok_iff.mp result
    exact InputNoteRecord.moves_withState
      (fun _ => InputNoteRecord.blockHeaderReceived_changes) received
  · obtain ⟨_, _, nothing⟩ := bind_eq_ok_iff.mp result
    obtain rfl := Except.ok.inj nothing
    exact .refl record

variable [DecidableEq μ] [DecidableEq π]

theorem moves_inclusionProof {record : InputNoteRecord μ π} {proof : π} {metadata : μ}
    {included : Option (InputNoteState μ π)}
    (result : liftRecord (record.state.inclusionProofReceived proof metadata) = .ok included) :
    record.Moves scheme (record.withState included) :=
  InputNoteRecord.moves_withState (fun _ => InputNoteRecord.inclusionProofReceived_changes) result

theorem goesOn_byProof (stored : Stored scheme nullifierOf rows) {request : ProofRequest μ π}
    (valid : ValidRequest nullifierOf Named rows request.previousNote request.details)
    {heights : OrderedMap Nullifier (Option BlockNumber)}
    {records : List (Option (InputNoteRecord μ π))}
    (result : context.importNoteRecordByProof scheme heights request = .ok records)
    {note : InputNoteRecord μ π} (member : some note ∈ records) :
    GoesOn scheme nullifierOf Named rows note := by
  obtain ⟨starts, named⟩ := valid.starts stored (rfl : context.startByProof scheme request = _)
  refine ⟨context.startByProof scheme request, starts, named, ?_⟩
  rw [ImportContext.importNoteRecordByProof] at result
  dsimp only at result
  split at result
  · obtain ⟨consumed, consuming, pushed⟩ := bind_eq_ok_iff.mp result
    obtain rfl := Except.ok.inj pushed
    have moves : (context.startByProof scheme request).Moves scheme
        ((context.startByProof scheme request).withState consumed) :=
      InputNoteRecord.moves_withState (fun _ => InputNoteRecord.consumedExternally_changes)
        consuming
    split at member
    · simp only [List.mem_cons, Option.some.injEq, reduceCtorEq, List.not_mem_nil,
        or_false] at member
      exact member ▸ moves
    · simp at member
  · obtain ⟨currentBlockNum, _, including⟩ := bind_eq_ok_iff.mp result
    obtain ⟨included, isIncluded, verifying⟩ := bind_eq_ok_iff.mp including
    obtain ⟨verified, isVerified, pushed⟩ := bind_eq_ok_iff.mp verifying
    obtain rfl := Except.ok.inj pushed
    have moves := (moves_inclusionProof isIncluded).trans (moves_verifyByBlock isVerified)
    rw [List.mem_singleton] at member
    split at member
    · exact Option.some.inj member ▸ moves
    · cases member

theorem goesOn_allByProof (stored : Stored scheme nullifierOf rows)
    {requests : List (ProofRequest μ π)}
    (valid : ∀ request ∈ requests,
      ValidRequest nullifierOf Named rows request.previousNote request.details)
    {records : List (Option (InputNoteRecord μ π))}
    (result : context.importNoteRecordsByProof scheme requests = .ok records)
    {note : InputNoteRecord μ π} (member : some note ∈ records) :
    GoesOn scheme nullifierOf Named rows note := by
  obtain ⟨heights, _, importing⟩ := bind_eq_ok_iff.mp result
  obtain ⟨groups, mapped, flattened⟩ := bind_eq_ok_iff.mp importing
  obtain rfl := Except.ok.inj flattened
  obtain ⟨group, among, inGroup⟩ := List.mem_flatten.mp member
  obtain ⟨request, listed, imported⟩ := exists_of_mem_mapM_eq_ok mapped among
  exact goesOn_byProof stored (valid request listed) imported inGroup

theorem goesOn_byDetails (stored : Stored scheme nullifierOf rows) {request : DetailsRequest μ π}
    (valid : ValidRequest nullifierOf Named rows request.previousNote request.details)
    {committedNotesData : OrderedMap NoteId (μ × π)} {note : InputNoteRecord μ π}
    (result : context.importNoteRecordByDetails scheme committedNotesData request =
      .ok (some note)) :
    GoesOn scheme nullifierOf Named rows note := by
  obtain ⟨starts, named⟩ := valid.starts stored (rfl : context.startByDetails request = _)
  refine ⟨context.startByDetails request, starts, named, ?_⟩
  rw [ImportContext.importNoteRecordByDetails] at result
  dsimp only at result
  split at result
  · obtain ⟨header, _, including⟩ := bind_eq_ok_iff.mp result
    obtain ⟨included, isIncluded, verifying⟩ := bind_eq_ok_iff.mp including
    obtain ⟨verified, isVerified, finishing⟩ := bind_eq_ok_iff.mp verifying
    have first : (context.startByDetails request).Moves scheme
        ((context.startByDetails request).withState included) := moves_inclusionProof isIncluded
    have second : ((context.startByDetails request).withState included).Moves scheme
        (((context.startByDetails request).withState included).withState verified) :=
      InputNoteRecord.moves_withState (fun _ => InputNoteRecord.blockHeaderReceived_changes)
        isVerified
    split at finishing
    · obtain ⟨_, _, pushed⟩ := bind_eq_ok_iff.mp finishing
      exact Option.some.inj (Except.ok.inj pushed) ▸ first.trans second
    · cases finishing
  · exact Option.some.inj (Except.ok.inj result) ▸ .refl _

theorem goesOn_allByDetails (stored : Stored scheme nullifierOf rows)
    {requests : List (DetailsRequest μ π)}
    (valid : ∀ request ∈ requests,
      ValidRequest nullifierOf Named rows request.previousNote request.details)
    {records : List (Option (InputNoteRecord μ π))}
    (result : context.importNoteRecordsByDetails scheme requests = .ok records)
    {note : InputNoteRecord μ π} (member : some note ∈ records) :
    GoesOn scheme nullifierOf Named rows note := by
  obtain ⟨committed, _, mapped⟩ := bind_eq_ok_iff.mp result
  obtain ⟨request, listed, imported⟩ := exists_of_mem_mapM_eq_ok mapped member
  exact goesOn_byDetails stored (valid request listed) imported

end Requests

/-- The public notes that the node sends go with their nullifiers. -/
def ImportContext.Fits (context : ImportContext μ π) (nullifierOf : NoteId → Nullifier) : Prop :=
  ∀ noteIds fetchedNotes, context.getNotesById noteIds = .ok fetchedNotes →
    ∀ details metadata proof, .publicNote details metadata proof ∈ fetchedNotes →
      details.nullifier = nullifierOf details.id

/-- What the loop over the fetched notes keeps. -/
structure FetchedSoFar (scheme : NoteScheme μ π) (nullifierOf : NoteId → Nullifier)
    (Named : NoteId → Prop) (rows : NoteRows μ π)
    (state : OrderedMap NoteId (Option (InputNoteRecord μ π)) × List (ProofRequest μ π)) :
    Prop where
  records : ∀ (noteId : NoteId) (note : InputNoteRecord μ π),
    state.1[noteId]? = some (some note) → GoesOn scheme nullifierOf Named rows note
  requests : ∀ request ∈ state.2,
    ValidRequest nullifierOf Named rows request.previousNote request.details

section Fetching

variable {scheme : NoteScheme μ π} {nullifierOf : NoteId → Nullifier} {Named : NoteId → Prop}
  {rows : NoteRows μ π} {context : ImportContext μ π}
  {notes : OrderedMap NoteId (Option (InputNoteRecord μ π))}

theorem FetchedSoFar.insert
    {state : OrderedMap NoteId (Option (InputNoteRecord μ π)) × List (ProofRequest μ π)}
    (soFar : FetchedSoFar scheme nullifierOf Named rows state) (noteId : NoteId)
    {record : Option (InputNoteRecord μ π)}
    (goesOn : ∀ note, record = some note → GoesOn scheme nullifierOf Named rows note) :
    FetchedSoFar scheme nullifierOf Named rows (state.1.insert noteId record, state.2) := by
  refine ⟨fun other note found => ?_, soFar.requests⟩
  rw [OrderedMap.getElem?_insert] at found
  split at found
  · exact goesOn note (Option.some.inj found)
  · exact soFar.records other note found

variable [DecidableEq μ] [DecidableEq π]

theorem FetchedSoFar.step (stored : Stored scheme nullifierOf rows)
    (previous : ∀ (noteId : NoteId) (previousNote : Option (InputNoteRecord μ π)),
      notes[noteId]? = some previousNote → IsPrevious Named rows noteId previousNote)
    {state next : OrderedMap NoteId (Option (InputNoteRecord μ π)) × List (ProofRequest μ π)}
    {fetchedNote : FetchedNote μ π}
    (fits : ∀ details metadata proof, fetchedNote = .publicNote details metadata proof →
      details.nullifier = nullifierOf details.id)
    (soFar : FetchedSoFar scheme nullifierOf Named rows state)
    (result : context.importNoteRecordById notes state fetchedNote = .ok next) :
    FetchedSoFar scheme nullifierOf Named rows next := by
  unfold ImportContext.importNoteRecordById at result
  dsimp only at result
  cases known : notes[fetchedNote.id]? with
  | none =>
      rw [known] at result
      cases result
  | some previousNote =>
      have isPrevious := previous fetchedNote.id previousNote known
      rw [known] at result
      cases previousNote with
      | some previousNote =>
          obtain ⟨row, found, parsed⟩ := Option.map_eq_some_iff.mp isPrevious.1.symm
          obtain ⟨starts, own⟩ := starts_of_stored stored found
          obtain ⟨included, isIncluded, further⟩ := bind_eq_ok_iff.mp result
          split at further
          · obtain ⟨tag, _, removing⟩ := bind_eq_ok_iff.mp further
            obtain ⟨_, _, written⟩ := bind_eq_ok_iff.mp removing
            obtain rfl := Except.ok.inj written
            refine soFar.insert _ fun note isNote => ?_
            rw [← Option.some.inj isNote]
            rw [parsed] at starts own
            exact ⟨previousNote, starts, own.symm ▸ isPrevious.2, moves_inclusionProof isIncluded⟩
          · obtain rfl := Except.ok.inj further
            exact soFar.insert _ nofun
      | none =>
          cases fetchedNote with
          | privateNote noteId metadata proof => cases result
          | publicNote details metadata proof =>
              obtain rfl := Except.ok.inj result
              refine ⟨soFar.records, fun request listed => ?_⟩
              rcases List.mem_append.mp listed with earlier | added
              · exact soFar.requests request earlier
              · rw [List.mem_singleton.mp added]
                exact ⟨isPrevious, fits details metadata proof rfl⟩

theorem goesOn_allById (stored : Stored scheme nullifierOf rows)
    (fits : context.Fits nullifierOf)
    (previous : ∀ (noteId : NoteId) (previousNote : Option (InputNoteRecord μ π)),
      notes[noteId]? = some previousNote → IsPrevious Named rows noteId previousNote)
    {records : OrderedMap NoteId (Option (InputNoteRecord μ π))}
    (result : context.importNoteRecordsById scheme notes = .ok records)
    {note : InputNoteRecord μ π} (member : some note ∈ records.values) :
    GoesOn scheme nullifierOf Named rows note := by
  obtain ⟨fetchedNotes, fetched, processing⟩ := bind_eq_ok_iff.mp result
  split at processing
  · cases processing
  obtain ⟨⟨noteRecords, notesToRequest⟩, folded, requesting⟩ := bind_eq_ok_iff.mp processing
  have soFar : FetchedSoFar scheme nullifierOf Named rows (noteRecords, notesToRequest) := by
    refine foldlM_invariant (FetchedSoFar scheme nullifierOf Named rows)
      (fun {state fetchedNote next} among kept stepped => ?_) ⟨?_, ?_⟩ folded
    · refine kept.step stored previous (fun details metadata proof isPublic => ?_) stepped
      exact fits _ fetchedNotes fetched details metadata proof (isPublic ▸ among)
    · intro noteId note found
      simp at found
    · exact fun request listed => absurd listed List.not_mem_nil
  obtain ⟨noteId, found⟩ := OrderedMap.mem_values.mp member
  dsimp only at requesting
  split at requesting
  · obtain rfl := Except.ok.inj requesting
    exact soFar.records noteId note found
  · obtain ⟨byProof, imported, collected⟩ := bind_eq_ok_iff.mp requesting
    obtain rfl := Except.ok.inj collected
    have inserted : FetchedSoFar scheme nullifierOf Named rows
        (byProof.reduceOption.foldl (fun collected note =>
          collected.insert note.id (some note)) noteRecords, notesToRequest) := by
      refine List.foldlRecOn (motive := fun current =>
        FetchedSoFar scheme nullifierOf Named rows (current, notesToRequest))
        byProof.reduceOption _ soFar fun current kept item listed => ?_
      refine kept.insert item.id fun note isNote => ?_
      rw [← Option.some.inj isNote]
      exact goesOn_allByProof stored soFar.requests imported (List.reduceOption_mem_iff.mp listed)
    exact inserted.records noteId note found

end Fetching

/-- The details of a file go with their nullifier. -/
def NoteFile.Fits (nullifierOf : NoteId → Nullifier) : NoteFile μ π → Prop
  | .noteId _ => True
  | .noteDetails details _ _ | .noteWithProof details _ _ =>
      details.nullifier = nullifierOf details.id

/-- One of the files is for the note. -/
def IsNamed (noteFiles : List (NoteFile μ π)) (noteId : NoteId) : Prop :=
  ∃ file ∈ noteFiles, file.id = noteId

structure ImportRequests.Valid (nullifierOf : NoteId → Nullifier) (Named : NoteId → Prop)
    (rows : NoteRows μ π) (requests : ImportRequests μ π) : Prop where
  byId : ∀ (noteId : NoteId) (previousNote : Option (InputNoteRecord μ π)),
    requests.byId[noteId]? = some previousNote → IsPrevious Named rows noteId previousNote
  byDetails : ∀ request ∈ requests.byDetails,
    ValidRequest nullifierOf Named rows request.previousNote request.details
  byProof : ∀ request ∈ requests.byProof,
    ValidRequest nullifierOf Named rows request.previousNote request.details

section Importing

variable {scheme : NoteScheme μ π} {nullifierOf : NoteId → Nullifier} {Named : NoteId → Prop}
  {rows : NoteRows μ π} {context : ImportContext μ π}

theorem ImportRequests.Valid.add {requests next : ImportRequests μ π} {file : NoteFile μ π}
    (fits : file.Fits nullifierOf) (named : Named file.id)
    (valid : requests.Valid nullifierOf Named rows)
    (result : requests.add rows (file.id, file) = .ok next) :
    next.Valid nullifierOf Named rows := by
  unfold ImportRequests.add at result
  dsimp only at result
  split at result
  · cases result
  · cases file with
    | noteId own =>
        obtain rfl := Except.ok.inj result
        refine ⟨fun noteId previousNote found => ?_, valid.byDetails, valid.byProof⟩
        rw [OrderedMap.getElem?_insert] at found
        split at found
        · rename_i same
          rw [← same, ← Option.some.inj found]
          exact ⟨rfl, named⟩
        · exact valid.byId noteId previousNote found
    | noteDetails details afterBlockNum tag =>
        obtain rfl := Except.ok.inj result
        refine ⟨valid.byId, fun request listed => ?_, valid.byProof⟩
        rcases List.mem_append.mp listed with earlier | added
        · exact valid.byDetails request earlier
        · rw [List.mem_singleton.mp added]
          exact ⟨⟨rfl, named⟩, fits⟩
    | noteWithProof details metadata inclusionProof =>
        obtain rfl := Except.ok.inj result
        refine ⟨valid.byId, valid.byDetails, fun request listed => ?_⟩
        rcases List.mem_append.mp listed with earlier | added
        · exact valid.byProof request earlier
        · rw [List.mem_singleton.mp added]
          exact ⟨⟨rfl, named⟩, fits⟩

theorem ImportRequests.valid_of_files {noteFiles : List (NoteFile μ π)}
    (fits : ∀ file ∈ noteFiles, file.Fits nullifierOf) {requests : ImportRequests μ π}
    (result : (OrderedMap.collect (noteFiles.map fun file => (file.id, file))).toList.foldlM
      (ImportRequests.add rows) ⟨∅, [], []⟩ = .ok requests) :
    requests.Valid nullifierOf (IsNamed noteFiles) rows := by
  refine foldlM_invariant (ImportRequests.Valid nullifierOf (IsNamed noteFiles) rows)
    (fun {state entry next} among valid stepped => ?_) ⟨?_, ?_, ?_⟩ result
  · obtain ⟨listed, own⟩ := OrderedMap.getElem?_collect_key
      (Std.ExtTreeMap.mem_toList_iff_getElem?_eq_some.mp among)
    have same : entry = (entry.2.id, entry.2) := Prod.ext own.symm rfl
    rw [same] at stepped
    exact valid.add (fits entry.2 listed) ⟨entry.2, listed, rfl⟩ stepped
  · intro noteId previousNote found
    simp at found
  · exact fun request listed => absurd listed List.not_mem_nil
  · exact fun request listed => absurd listed List.not_mem_nil

variable [DecidableEq μ] [DecidableEq π]

omit [DecidableEq μ] [DecidableEq π] in
theorem of_unlessEmpty {isEmpty : Bool}
    {imported : Except ClientError (List (Option (InputNoteRecord μ π)))}
    {records : List (Option (InputNoteRecord μ π))} {record : Option (InputNoteRecord μ π)}
    (result : ImportContext.unlessEmpty isEmpty imported = .ok records)
    (member : record ∈ records) : imported = .ok records := by
  rw [ImportContext.unlessEmpty] at result
  split at result
  · rw [← Except.ok.inj result] at member
    cases member
  · exact result

/-- Every imported note is one of a file, and goes on from the stored note. -/
theorem importedNotes_goOn (stored : Stored scheme nullifierOf rows)
    (contextFits : context.Fits nullifierOf) {noteFiles : List (NoteFile μ π)}
    (fits : ∀ file ∈ noteFiles, file.Fits nullifierOf) {notes : List (InputNoteRecord μ π)}
    (result : context.importedNotes scheme noteFiles rows = .ok notes) :
    ∀ note ∈ notes, GoesOn scheme nullifierOf (IsNamed noteFiles) rows note := by
  obtain ⟨requests, collecting, importing⟩ := bind_eq_ok_iff.mp result
  obtain ⟨notesById, importedById, furtherDetails⟩ := bind_eq_ok_iff.mp importing
  obtain ⟨notesByDetails, importedByDetails, furtherProof⟩ := bind_eq_ok_iff.mp furtherDetails
  obtain ⟨notesByProof, importedByProof, written⟩ := bind_eq_ok_iff.mp furtherProof
  obtain rfl := Except.ok.inj written
  have valid := ImportRequests.valid_of_files fits collecting
  intro note member
  rw [List.reduceOption_mem_iff, List.mem_append, List.mem_append] at member
  rcases member with (inById | inByDetails) | inByProof
  · have asked := of_unlessEmpty importedById inById
    rw [map_eq_pure_bind] at asked
    obtain ⟨records, imported, values⟩ := bind_eq_ok_iff.mp asked
    rw [← Except.ok.inj values] at inById
    exact goesOn_allById stored contextFits valid.byId imported inById
  · exact goesOn_allByDetails stored valid.byDetails
      (of_unlessEmpty importedByDetails inByDetails) inByDetails
  · exact goesOn_allByProof stored valid.byProof (of_unlessEmpty importedByProof inByProof)
      inByProof

end Importing

/-! ### What is written -/

/-- Only rows of the notes are written, each as a whole. -/
structure Upserts (notes : List (InputNoteRecord μ π)) (before after : NoteRows μ π) : Prop where
  inputs : ∀ noteId : NoteId, after.inputs[noteId]? = before.inputs[noteId]? ∨
    ∃ note ∈ notes, note.id = noteId ∧ after.inputs[noteId]? = some (serializeInputNote note)
  outputs : after.outputs = before.outputs

section Upserting

variable {scheme : NoteScheme μ π} {nullifierOf : NoteId → Nullifier}
  {notes : List (InputNoteRecord μ π)} {before after rows : NoteRows μ π}

theorem Upserts.refl (rows : NoteRows μ π) : Upserts notes rows rows :=
  ⟨fun _ => .inl rfl, rfl⟩

theorem Upserts.trans {others : List (InputNoteRecord μ π)} {middle : NoteRows μ π}
    (first : Upserts notes before middle) (second : Upserts others middle after) :
    Upserts (notes ++ others) before after := by
  refine ⟨fun noteId => ?_, second.outputs.trans first.outputs⟩
  rcases second.inputs noteId with same | ⟨note, listed, own, written⟩
  · rw [same]
    rcases first.inputs noteId with sameAlso | ⟨note, listed, own, written⟩
    · exact .inl sameAlso
    · exact .inr ⟨note, List.mem_append_left _ listed, own, written⟩
  · exact .inr ⟨note, List.mem_append_right _ listed, own, written⟩

theorem upserts_upsertInputNotes (notes : List (InputNoteRecord μ π)) (rows : NoteRows μ π) :
    Upserts notes rows (rows.upsertInputNotes notes) := by
  induction notes generalizing rows with
  | nil => exact .refl rows
  | cons note others inductionHypothesis =>
      have first : Upserts [note] rows (rows.upsertInputNotes [note]) := by
        refine ⟨fun noteId => ?_, rfl⟩
        by_cases own : note.id = noteId
        · refine .inr ⟨note, .head _, own, ?_⟩
          rw [NoteRows.upsertInputNotes, List.foldl_cons, List.foldl_nil,
            OrderedMap.getElem?_insert, if_pos own]
        · refine .inl ?_
          rw [NoteRows.upsertInputNotes, List.foldl_cons, List.foldl_nil,
            OrderedMap.getElem?_insert, if_neg own]
      exact first.trans (inductionHypothesis (rows.upsertInputNotes [note]))

theorem upserts_storeImported (context : ImportContext μ π) (notes : List (InputNoteRecord μ π))
    (rows : NoteRows μ π) : Upserts notes rows (context.storeImported notes rows).2 := by
  induction notes generalizing rows with
  | nil => exact .refl rows
  | cons note others inductionHypothesis =>
      unfold ImportContext.storeImported
      dsimp only
      split
      · exact .refl rows
      · exact (upserts_upsertInputNotes [note] rows).trans (inductionHypothesis _)

theorem Stored.upserts (stored : Stored scheme nullifierOf before)
    (fits : ∀ note ∈ notes, NoteUpdateTracker.Fits scheme nullifierOf note)
    (upserts : Upserts notes before after) : Stored scheme nullifierOf after := by
  refine ⟨⟨fun noteId row found => ?_, ?_⟩, fun noteId row found => ?_, ?_⟩
  · rcases upserts.inputs noteId with same | ⟨note, listed, own, written⟩
    · exact stored.wellFormed.inputs noteId row (same.symm.trans found)
    · obtain rfl := Option.some.inj (written.symm.trans found)
      exact ⟨own, rfl⟩
  · rw [upserts.outputs]
    exact stored.wellFormed.outputs
  · rcases upserts.inputs noteId with same | ⟨note, listed, own, written⟩
    · exact stored.inputs noteId row (same.symm.trans found)
    · obtain rfl := Option.some.inj (written.symm.trans found)
      exact ⟨(fits note listed).nullifier, (fits note listed).authentic⟩
  · rw [upserts.outputs]
    exact stored.outputs

theorem Persists.upserts {entries : Entries} (upserts : Upserts notes before after)
    (persists : ∀ note ∈ notes, ∀ row, before.inputs[note.id]? = some row →
      row.Persists (entries.Requested note.id) (entries.Imported note.id)
        (serializeInputNote note)) :
    Persists entries before after := by
  constructor
  · intro noteId row _ found
    rcases upserts.inputs noteId with same | ⟨note, listed, own, written⟩
    · exact ⟨row, same.trans found, .refl row⟩
    · subst own
      exact ⟨serializeInputNote note, written, persists note listed row found⟩
  · intro noteId row _ found
    rw [upserts.outputs]
    exact ⟨row, found, .refl row⟩

/-- The notes of these files, and no others, are imported. -/
def importing (noteFiles : List (NoteFile μ π)) : Entries :=
  { Entries.none with Imported := IsNamed noteFiles }

theorem Stored.importNotes [DecidableEq μ] [DecidableEq π]
    (stored : Stored scheme nullifierOf rows) {context : ImportContext μ π}
    (contextFits : context.Fits nullifierOf) {noteFiles : List (NoteFile μ π)}
    (fits : ∀ file ∈ noteFiles, file.Fits nullifierOf) :
    Stored scheme nullifierOf (context.importNotes scheme noteFiles rows).2 ∧
      Persists (importing noteFiles) rows (context.importNotes scheme noteFiles rows).2 := by
  rw [ImportContext.importNotes]
  split
  · exact ⟨stored, .refl rows⟩
  · rename_i notes result
    have goOn := importedNotes_goOn stored contextFits fits result
    have upserts := upserts_storeImported context notes rows
    constructor
    · refine stored.upserts (fun note listed => ?_) upserts
      obtain ⟨start, starts, _, moves⟩ := goOn note listed
      exact starts.fits.keeps moves.keeps
    · refine .upserts upserts fun note listed row found => ?_
      obtain ⟨start, starts, named, moves⟩ := goOn note listed
      have sameId : note.id = start.id := congrArg NoteDetails.id moves.keeps.details
      have parsed := starts.stored row (sameId ▸ found)
      subst parsed
      refine .of_keeps (stored.wellFormed.inputs note.id row found).2 moves.keeps moves.consumed
        (.inl ?_)
      rw [sameId]
      exact named

/-- The details that are read go with their nullifiers. -/
def NoteTransport.Fits (transport : NoteTransport μ) (nullifierOf : NoteId → Nullifier) : Prop :=
  ∀ bytes details, transport.readDetails bytes = .ok details →
    details.nullifier = nullifierOf details.id

theorem transportedFiles_fit {context : ImportContext μ π} {transport : NoteTransport μ}
    (fits : transport.Fits nullifierOf) {noteFiles : List (NoteFile μ π)}
    (result : context.transportedFiles transport = .ok noteFiles) :
    ∀ file ∈ noteFiles, file.Fits nullifierOf := by
  obtain ⟨noteInfos, _, rejoining⟩ := bind_eq_ok_iff.mp result
  obtain ⟨notes, rejoined, building⟩ := bind_eq_ok_iff.mp rejoining
  obtain ⟨syncHeight, _, built⟩ := bind_eq_ok_iff.mp building
  obtain rfl := Except.ok.inj built
  intro file member
  obtain ⟨note, listed, rfl⟩ := List.mem_map.mp member
  obtain ⟨info, _, joined⟩ := exists_of_mem_mapM_eq_ok rejoined listed
  obtain ⟨details, read, same⟩ := bind_eq_ok_iff.mp joined
  obtain rfl := Except.ok.inj same
  exact fits info.detailsBytes details read

/-- The notes that the transport layer hands over are imported. -/
def transporting (context : ImportContext μ π) (transport : NoteTransport μ) : Entries :=
  { Entries.none with
    Imported := fun noteId => ∃ noteFiles, context.transportedFiles transport = .ok noteFiles ∧
      IsNamed noteFiles noteId }

theorem Stored.fetchTransportNotes [DecidableEq μ] [DecidableEq π]
    (stored : Stored scheme nullifierOf rows) {context : ImportContext μ π}
    (contextFits : context.Fits nullifierOf) {transport : NoteTransport μ}
    (fits : transport.Fits nullifierOf) :
    Stored scheme nullifierOf (context.fetchTransportNotes scheme transport rows).2 ∧
      Persists (transporting context transport) rows
        (context.fetchTransportNotes scheme transport rows).2 := by
  rw [ImportContext.fetchTransportNotes]
  split
  · exact ⟨stored, .refl rows⟩
  · rename_i noteFiles given
    obtain ⟨storedAfter, persists⟩ :=
      stored.importNotes contextFits (transportedFiles_fit fits given)
    refine ⟨storedAfter, persists.mono ⟨fun _ => False.elim, fun _ => False.elim, ?_⟩⟩
    exact fun noteId named => ⟨noteFiles, given, named⟩

end Upserting

/-! ### What a request writes -/

/-- The notes of a request go with their nullifiers. -/
def TransactionRequest.Fits (request : TransactionRequest μ)
    (nullifierOf : NoteId → Nullifier) : Prop :=
  ∀ note ∈ request.inputNotes, note.1.nullifier = nullifierOf note.1.id

/-- The notes that the request may enter. -/
def TransactionRequest.requesting (request : TransactionRequest μ) : Entries :=
  { Entries.none with Requested := fun noteId => ∃ note ∈ request.inputNotes, note.1.id = noteId }

section Requesting

variable {scheme : NoteScheme μ π} {nullifierOf : NoteId → Nullifier} {rows : NoteRows μ π}
  {request : TransactionRequest μ}

theorem TransactionRequest.mem_storedNoteRecords (wellFormed : rows.WellFormed)
    {note : NoteDetails × μ} (listed : note ∈ request.inputNotes) {row : InputNoteRow μ π}
    (found : rows.inputs[note.1.id]? = some row) :
    parseInputNote row ∈ request.storedNoteRecords rows := by
  refine List.mem_map.mpr ⟨row, List.mem_filter.mpr ⟨?_, ?_⟩, rfl⟩
  · exact OrderedMap.mem_values.mpr ⟨note.1.id, found⟩
  · have own := (wellFormed.inputs note.1.id row found).1
    exact List.any_eq_true.mpr ⟨note, listed, decide_eq_true own.symm⟩

/-- A row that the request replaces is neither consumed nor authenticated. -/
theorem TransactionRequest.replaces (wellFormed : rows.WellFormed)
    (unconsumed : (request.storedNoteRecords rows).find? InputNoteRecord.isConsumed = none)
    {record : InputNoteRecord μ π}
    (member : record ∈ request.unauthenticatedInputNotes (request.storedNoteRecords rows)) :
    ∃ note ∈ request.inputNotes, request.noteRecord note = record ∧
      ∀ row, rows.inputs[note.1.id]? = some row →
        row.state.consumedBlockHeight.isSome = false ∧ row.state.isAuthenticated = false := by
  obtain ⟨note, selected, rfl⟩ := List.mem_map.mp member
  obtain ⟨listed, missing⟩ := List.mem_filter.mp selected
  refine ⟨note, listed, rfl, fun row found => ?_⟩
  have stored := mem_storedNoteRecords wellFormed listed found
  constructor
  · exact Bool.eq_false_of_not_eq_true (List.find?_eq_none.mp unconsumed _ stored)
  · refine Bool.eq_false_of_not_eq_true fun checked => ?_
    have own : (parseInputNote row).id = note.1.id := (wellFormed.inputs note.1.id row found).1
    have known : note.1.id ∈ ((request.storedNoteRecords rows).filter
        InputNoteRecord.isAuthenticated).map InputNoteRecord.id :=
      List.mem_map.mpr ⟨parseInputNote row, List.mem_filter.mpr ⟨stored, checked⟩, own⟩
    rw [List.contains_iff_mem.mpr known] at missing
    cases missing

theorem Stored.executeTransaction (stored : Stored scheme nullifierOf rows)
    (fits : request.Fits nullifierOf) :
    Stored scheme nullifierOf (request.executeTransaction rows).2 ∧
      Persists request.requesting rows (request.executeTransaction rows).2 := by
  rw [TransactionRequest.executeTransaction]
  split
  · exact ⟨stored, .refl rows⟩
  dsimp only
  split
  · exact ⟨stored, .refl rows⟩
  · rename_i unconsumed
    have upserts := upserts_upsertInputNotes
      (request.unauthenticatedInputNotes (request.storedNoteRecords rows)) rows
    constructor
    · refine stored.upserts (fun record member => ?_) upserts
      obtain ⟨note, listed, rfl, _⟩ := request.replaces stored.wellFormed unconsumed member
      exact ⟨fits note listed, trivial⟩
    · refine .upserts upserts fun record member row found => ?_
      obtain ⟨note, listed, rfl, free⟩ := request.replaces stored.wellFormed unconsumed member
      obtain ⟨notConsumed, notChecked⟩ := free row found
      have own := (stored.wellFormed.inputs note.1.id row found).1
      have nullifier : row.details.nullifier = nullifierOf row.details.id :=
        (stored.inputs note.1.id row found).nullifier
      rw [own] at nullifier
      refine ⟨?_, fun notRequested => ?_, fun checked => ?_, fun consumed => ?_,
        fun notRequested => ?_⟩
      · exact NoteDetails.ext own.symm ((fits note listed).trans nullifier.symm)
      · exact absurd ⟨note, listed, rfl⟩ notRequested
      · cases notChecked.symm.trans checked
      · cases notConsumed.symm.trans consumed
      · exact absurd ⟨note, listed, rfl⟩ notRequested

end Requesting

end MidenWorkspace.Client
