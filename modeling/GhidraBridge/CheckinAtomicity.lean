import GhidraBridge.Checkin

/-! A check-in either fails and leaves the check-in state alone, or succeeds and
moves every baseline. Between the first baseline update and the end of the
`try` block only the ids of added types are read from the reply, and only behind
a test that they are numbers. -/
namespace GhidraBridge.CheckinAtomicity
open Lib GhidraConnection

/-- The same types by name, up to their database ids. -/
def SameButIds (first second : Table String GhidraDataType) : Prop :=
  ∀ name, (first.lookup name).map (fun dt => { dt with id := 0 }) =
    (second.lookup name).map (fun dt => { dt with id := 0 })

private theorem recordTypeId_runs (entry : String × Json) (state : CheckinState) :
    ∃ types, SameButIds types state.ghidraTypesByName ∧
      (recordTypeId entry).run.run state = (.ok (), { state with ghidraTypesByName := types }) := by
  unfold recordTypeId
  by_cases number : entry.2.isNumber = true
  · cases found : state.ghidraTypesByName.lookup entry.1 with
    | none =>
      refine ⟨state.ghidraTypesByName, fun _ => rfl, ?_⟩
      simp [StateT.run, number, found]
    | some stored =>
      obtain ⟨id, read⟩ := Json.getInt64_of_isNumber number
      refine ⟨state.ghidraTypesByName.set entry.1 { stored with id := id }, ?_, ?_⟩
      · intro name
        rw [Table.lookup_set]
        by_cases here : name = entry.1
        · rw [if_pos here, here, found]
          rfl
        · rw [if_neg here]
      · simp [StateT.run, number, found, read]
  · refine ⟨state.ghidraTypesByName, fun _ => rfl, ?_⟩
    simp [StateT.run, number]

/-- Reading the ids of added types never throws and writes nothing but ids. -/
theorem recordTypeIds_runs (ids : List (String × Json)) (state : CheckinState) :
    ∃ types, SameButIds types state.ghidraTypesByName ∧
      (recordTypeIds ids).run.run state = (.ok (), { state with ghidraTypesByName := types }) := by
  induction ids generalizing state with
  | nil => exact ⟨state.ghidraTypesByName, fun _ => rfl, rfl⟩
  | cons entry rest ih =>
    obtain ⟨first, sameFirst, ranFirst⟩ := recordTypeId_runs entry state
    obtain ⟨types, same, ran⟩ := ih { state with ghidraTypesByName := first }
    refine ⟨types, fun name => (same name).trans (sameFirst name), ?_⟩
    rw [recordTypeIds, Attempt.run_bind, ranFirst]
    exact ran

/-- Everything the body of the `try` block can do: stop without success in the
state it started from, or succeed with the baselines moved. -/
theorem checkinBody_cases (rebase : UInt64) (preview : GhidraCheckinPreview) (comment : String)
    (send : Json → Except String Json) (state : CheckinState) :
    (∃ result, (checkinBody rebase preview comment send).run.run state = (result, state) ∧
      ∀ outcome, result = .ok outcome → outcome.success = false) ∨
    ∃ warned types, SameButIds types state.ghidraTypesByName ∧
      (checkinBody rebase preview comment send).run.run state =
        (.ok { success := true, warned := warned },
          CheckinState.recordPreview { state with ghidraTypesByName := types } rebase preview) := by
  unfold checkinBody
  simp only [Attempt.run_bind, Attempt.run_get, Attempt.run_reading]
  cases send _ with
  | error what => exact .inl ⟨.error what, rfl, by simp⟩
  | ok resp =>
    dsimp only
    cases flag : resp.valueOr "ok" Json.getBool false with
    | error what => exact .inl ⟨.error what, rfl, by simp⟩
    | ok accepted =>
      cases accepted with
      | false =>
        refine .inl ?_
        simp only [Bool.false_eq_true, if_false, Attempt.run_bind, Attempt.run_reading]
        cases resp.valueOr "error" Json.getString "checkin failed" with
        | error what => exact ⟨.error what, rfl, by simp⟩
        | ok error =>
          refine ⟨.ok { success := false, errorOut := error }, rfl, ?_⟩
          rintro outcome ⟨⟩
          rfl
      | true =>
        simp only [if_true, Attempt.run_bind, Attempt.run_reading]
        cases shortfalls resp _ with
        | error what => exact .inl ⟨.error what, rfl, by simp⟩
        | ok warned =>
          obtain ⟨types, same, ran⟩ := recordTypeIds_runs (addedTypeIds resp) state
          refine .inr ⟨warned, types, same, ?_⟩
          simp only [ran, Attempt.run_modify, Attempt.run_pure]

/-- Everything `checkin` can do. -/
theorem checkin_cases (conn : GhidraConnection) (view : BinaryView) (preview : GhidraCheckinPreview)
    (comment : String) (send : Json → Except String Json) :
    ((conn.checkin view preview comment send).1.success = false ∧
      (conn.checkin view preview comment send).2 = conn) ∨
    ((conn.checkin view preview comment send).1.success = true ∧ conn.checkinState.checkinItem ≠ "" ∧
      ∃ types, SameButIds types conn.checkinState.ghidraTypesByName ∧
        (conn.checkin view preview comment send).2 =
          { conn with
            checkinState :=
              CheckinState.recordPreview { conn.checkinState with ghidraTypesByName := types }
                (conn.checkinState.rebase view) preview }) := by
  unfold checkin
  split
  · exact .inl ⟨rfl, rfl⟩
  · split
    · exact .inl ⟨rfl, rfl⟩
    · split
      · exact .inl ⟨rfl, rfl⟩
      · rename_i imported
        dsimp only
        rcases checkinBody_cases (conn.checkinState.rebase view) preview comment send conn.checkinState with
          ⟨result, ran, unsuccessful⟩ | ⟨warned, types, same, ran⟩
        · refine .inl ?_
          rw [ran]
          cases result with
          | error what => exact ⟨rfl, rfl⟩
          | ok outcome => exact ⟨unsuccessful outcome rfl, rfl⟩
        · refine .inr ?_
          rw [ran]
          exact ⟨rfl, imported, types, same, rfl⟩

/-- A check-in that returns false leaves the connection, and with it every
baseline and every field of the check-in state, as it was. -/
theorem failed_checkin_keeps_connection (conn : GhidraConnection) (view : BinaryView)
    (preview : GhidraCheckinPreview) (comment : String) (send : Json → Except String Json)
    (failed : (conn.checkin view preview comment send).1.success = false) :
    (conn.checkin view preview comment send).2 = conn := by
  rcases checkin_cases conn view preview comment send with ⟨_, kept⟩ | ⟨succeeded, _⟩
  · exact kept
  · rw [succeeded] at failed
    cases failed

/-- A connection with one renamed symbol pending. -/
def renamedConnection : GhidraConnection :=
  { bridgeConnected := true, serverConnected := true, host := "a", port := 13100
    checkinState :=
      { addrToKey := ∅, addrToOriginalName := Table.set ∅ 0x401000 "old", checkinRepo := "r"
        checkinFolder := "/", checkinItem := "prog" } }

/-- The server answers with a number where the flag should be. -/
theorem mistyped_reply_keeps_connection :
    (renamedConnection.checkin {} { renames := [⟨5, 0x401000, "old", "new"⟩] } "note"
      fun _ => .ok (.obj [("ok", .int 1)])).2 = renamedConnection :=
  failed_checkin_keeps_connection _ _ _ _ _ (by decide +kernel)

end GhidraBridge.CheckinAtomicity
