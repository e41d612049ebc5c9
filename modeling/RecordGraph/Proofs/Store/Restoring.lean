import RecordGraph.Proofs.Store.Pointing
import RecordGraph.Proofs.Store.Targeting
import RecordGraph.Proofs.Store.Unregistered

/-!
# Undoing a destruction

A destruction that only hides goes through the live rows of a table, and bringing rows back goes
through the hidden ones, each with its own count towards the limit. If the filter refuses all rows
that were hidden before, both come to the same places: the rows that were just hidden are the only
hidden ones that the filter accepts, there are no more of them than the limit, and the rows that
the destruction did not look at are not looked at again.
-/

namespace RecordGraph

namespace Table

variable {t : Table} {filter : Record} {limit : Option Nat} {index : Nat} {places : List Nat}
variable {rows : List StoredRow}

/-- No place is found where none is asked for. -/
theorem matchingFrom_full (filter : Record) (hidden : Bool) (index : Nat) (rows : List StoredRow) :
    matchingFrom filter hidden (some 0) index rows = .ok [] := by
  induction rows generalizing index with
  | nil => rfl
  | cons row rest ih =>
      rw [matchingFrom]
      split
      · exact ih (index + 1)
      · rfl

/-- The places that are found are not before the first. -/
theorem le_of_mem_matchingFrom {hidden : Bool}
    (done : matchingFrom filter hidden limit index rows = .ok places) : ∀ i ∈ places, index ≤ i := by
  induction rows generalizing limit index places with
  | nil =>
      cases done
      nofun
  | cons row rest ih =>
      have later {limit : Option Nat} {places : List Nat}
          (done : matchingFrom filter hidden limit (index + 1) rest = .ok places) :
          ∀ i ∈ places, index ≤ i := fun i member => Nat.le_of_succ_le (ih done i member)
      rw [matchingFrom] at done
      split at done
      · exact later done
      · split at done
        · cases done
          nofun
        · obtain ⟨accepted, -, done⟩ := bind_eq_ok_iff.mp done
          cases accepted with
          | false => exact later done
          | true =>
              obtain ⟨others, found, last⟩ := bind_eq_ok_iff.mp done
              cases last
              exact List.forall_mem_cons.mpr ⟨Nat.le_refl index, later found⟩

/-- The rows from a place on, of which those at some places are hidden. -/
def hideFrom (places : List Nat) (index : Nat) (rows : List StoredRow) : List StoredRow :=
  rows.mapIdx fun i row => if index + i ∈ places then { row with hidden := true } else row

theorem hideFrom_cons (places : List Nat) (index : Nat) (row : StoredRow) (rest : List StoredRow) :
    hideFrom places index (row :: rest) =
      (if index ∈ places then { row with hidden := true } else row) ::
        hideFrom places (index + 1) rest := by
  simp only [hideFrom, List.mapIdx_cons, Nat.add_zero, Nat.add_assoc, Nat.add_comm 1]

/-- A place before the first one makes no difference. -/
theorem hideFrom_past (index : Nat) (places : List Nat) (rows : List StoredRow) :
    hideFrom (index :: places) (index + 1) rows = hideFrom places (index + 1) rows := by
  have past (i : Nat) : index + 1 + i ≠ index := by omega
  simp only [hideFrom, List.mem_cons, past, false_or]

/-- The places that are found among the live rows are found among the hidden ones as soon as the
rows there are hidden, if the filter refuses all that were hidden before. -/
theorem matchingFrom_hideFrom
    (settled : ∀ row ∈ rows, row.hidden = true → Filter.accepts filter row.data = .ok false)
    (done : matchingFrom filter false limit index rows = .ok places) :
    matchingFrom filter true limit index (hideFrom places index rows) = .ok places := by
  induction rows generalizing limit index places with
  | nil => exact done
  | cons row rest ih =>
      by_cases full : limit = some 0
      · subst full
        rw [matchingFrom_full] at done ⊢
        exact done
      obtain ⟨here, later⟩ := List.forall_mem_cons.mp settled
      have past {limit : Option Nat} {places : List Nat}
          (done : matchingFrom filter false limit (index + 1) rest = .ok places) :
          index ∉ places := fun member =>
        absurd (le_of_mem_matchingFrom done index member) (Nat.not_succ_le_self index)
      rw [matchingFrom] at done
      rw [hideFrom_cons]
      cases hidden : row.hidden with
      | true =>
          rw [hidden, if_pos (by decide)] at done
          rw [if_neg (past done), matchingFrom, hidden, here hidden, if_neg (by decide), if_neg full]
          exact ih later done
      | false =>
          rw [hidden, if_neg (by decide), if_neg full] at done
          obtain ⟨accepted, answer, done⟩ := bind_eq_ok_iff.mp done
          cases accepted with
          | false =>
              rw [if_neg (past done), matchingFrom, hidden, if_pos (by decide)]
              exact ih later done
          | true =>
              obtain ⟨others, found, last⟩ := bind_eq_ok_iff.mp done
              cases last
              rw [if_pos List.mem_cons_self, hideFrom_past, matchingFrom, if_neg (by simp),
                if_neg full, answer, ok_bind, if_pos rfl, ih later found]
              rfl

/-- Rows that are hidden together are found again among the hidden ones. -/
theorem matching_setHidden
    (settled : ∀ row ∈ t.rows, row.hidden = true → Filter.accepts filter row.data = .ok false)
    (done : t.matching filter false limit = .ok places) :
    (t.setHidden true places).matching filter true limit = .ok places := by
  have nodup : places.Nodup := matching_ok done ▸ nodup_chosen
  have turned : (t.setHidden true places).rows = hideFrom places 0 t.rows := by
    simp only [hideFrom, Nat.zero_add]
    exact modifyAll_eq_mapIdx nodup
  rw [matching, turned]
  exact matchingFrom_hideFrom settled done

/-- Live rows that are hidden and shown again are as before. -/
theorem setHidden_setHidden (done : t.matching filter false limit = .ok places) :
    (t.setHidden true places).setHidden false places = t := by
  obtain rfl := matching_ok done
  refine congrArg (Table.mk · t.counter) (List.ext_getElem? fun i => ?_)
  by_cases member : i ∈ t.chosen filter limit
  · obtain ⟨row, found, meets⟩ := exists_of_mem_chosen member
    have live := (StoredRow.meets_eq_true_iff.mp meets).1
    refine (getElem?_modifyAll_of_mem nodup_chosen member).trans ?_
    refine (congrArg _ (getElem?_modifyAll_of_mem nodup_chosen member)).trans ?_
    rw [found, Option.map_some, Option.map_some, ← live]
  · exact (getElem?_modifyAll_of_not_mem member).trans (getElem?_modifyAll_of_not_mem member)

end Table

namespace Engine

variable {m : Model} {e e' : Engine} {n : Nat}

/-- Rows that a destruction has hidden are brought back by the same filter and limit, and as many
are reported, if the filter refuses all rows that were hidden before. Every table is then as it was
before the destruction. -/
theorem restore_destroy {request : Request.Destroy} (paranoid : m.paranoid = true)
    (unforced : request.force = false)
    (settled : ∀ row ∈ (e.database.openTable m.name).rows, row.hidden = true →
      Filter.accepts request.filter row.data = .ok false)
    (done : destroy m request e = (.ok n, e')) (force : Bool) (transaction : Option Nat) :
    restore m { request with force, transaction } e' =
        (.ok n, { e with database := e.database.opened m.name }) ∧
      (∀ name, (e.database.opened m.name).openTable name = e.database.openTable name) ∧
      ∀ name t, e.database.table? name = some t →
        (e.database.opened m.name).table? name = some t := by
  obtain ⟨places, matched, rfl, rfl⟩ := destroy_ok done
  rw [paranoid, unforced, Bool.not_false, Bool.and_true, if_pos rfl]
  refine ⟨?_, Database.openTable_opened, fun name t table => ?_⟩
  · have found := Table.matching_setHidden settled matched
    have shown := Table.setHidden_setHidden matched
    rw [restore, if_pos paranoid]
    refine (onTable_run_ok ?_).trans (congrArg _ (setTable_setTable_self ..))
    simp only [setTable, Database.openTable_setTable_self, found, ok_bind, shown]
    rfl
  · by_cases same : name = m.name
    · subst same
      rw [Database.opened, Database.openTable, ← Database.table?, table]
      exact Dict.get?_insert_self ..
    · rw [Database.table?_opened same, table]

/-- Of the open tickets after the first one two are hidden and brought back; the first one, which
was hidden before, stays so. -/
theorem restore_destroy_tickets :
    let request : Request.Destroy :=
      { filter := [("id", .obj [("$gt", .ofInt 1)]), ("state", .str "open")], limit := some 2 }
    let after := (destroy ticket request desk).2
    (∀ row ∈ (desk.database.openTable ticket.name).rows, row.hidden = true →
        Filter.accepts request.filter row.data = .ok false) ∧
      destroy ticket request desk = (.ok 2, after) ∧
      (after.database.openTable ticket.name).rows =
        [ticketRow 1 "open" true, ticketRow 2 "open" true, ticketRow 3 "closed" false,
          ticketRow 4 "open" true, ticketRow 5 "open" false] ∧
      restore ticket request after = (.ok 2, desk) := by
  intro request after
  have settled : ∀ row ∈ (desk.database.openTable ticket.name).rows, row.hidden = true →
      Filter.accepts request.filter row.data = .ok false := by
    show ∀ row ∈ [ticketRow 1 "open" true, ticketRow 2 "open" false, ticketRow 3 "closed" false,
      ticketRow 4 "open" false, ticketRow 5 "open" false], _
    simp only [List.forall_mem_cons]
    exact ⟨fun _ => by rfl, nofun, nofun, nofun, nofun, nofun⟩
  have done : destroy ticket request desk = (.ok 2, after) := Prod.ext (by rfl) rfl
  have back := (restore_destroy rfl rfl settled done false none).1
  refine ⟨settled, done, by rfl, back.trans ?_⟩
  rfl

end Engine

end RecordGraph
