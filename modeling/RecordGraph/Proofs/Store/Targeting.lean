import Mathlib.Data.List.InsertIdx
import RecordGraph.Proofs.Store.Connecting
import RecordGraph.Proofs.Store.Rewriting

/-!
# Bulk writes reach the rows that a request shows

An update and a destruction go through a table, note the places of the live rows that their
filter holds of, and then write into the rows at these places, hide them or remove them. A
request with the same filter and limit goes its own way and answers the same rows. Removing
goes from the last place to the first, so that no place has shifted when its turn comes: what
is left are the rows at all other places, in their order.
-/

namespace RecordGraph

namespace Table

variable {m : Model} {t t' : Table} {data : Record} {places : List Nat} {n : Nat}

/-- Changing the rows at several places in turn is changing each row whose place is among
them. -/
theorem modifyAll_eq_mapIdx {f : StoredRow → StoredRow} {rows : List StoredRow}
    (nodup : places.Nodup) :
    modifyAll f places rows = rows.mapIdx fun i row => if i ∈ places then f row else row := by
  refine List.ext_getElem? fun i => ?_
  rw [List.getElem?_mapIdx]
  by_cases member : i ∈ places
  · simp only [getElem?_modifyAll_of_mem nodup member, member, if_true]
  · simp only [getElem?_modifyAll_of_not_mem member, member, if_false, Option.map_id']

/-- The rows whose places are not among some places, in their order. -/
def without (places : List Nat) (rows : List StoredRow) : List StoredRow :=
  (rows.zipIdx.filter fun entry => entry.2 ∉ places).map Prod.fst

/-- Of a numbered list without some numbers, the one at a place before all of these goes. -/
theorem eraseIdx_filter_zipIdx {α : Type} {items : List α} {start place : Nat}
    (later : ∀ i ∈ places, start + place < i) :
    ((items.zipIdx start).filter fun entry => entry.2 ∉ places).eraseIdx place =
      (items.zipIdx start).filter fun entry => entry.2 ∉ (start + place) :: places := by
  induction items generalizing start place with
  | nil => rfl
  | cons x rest ih =>
      have first : start ∉ places := fun member => by
        have := later start member
        omega
      rw [List.zipIdx_cons, List.filter_cons_of_pos (by simpa using first)]
      cases place with
      | zero =>
          rw [List.eraseIdx_zero, List.tail_cons, List.filter_cons_of_neg (by simp)]
          refine List.filter_congr fun entry member => ?_
          have past : entry.2 ≠ start := by
            have := List.le_snd_of_mem_zipIdx member
            omega
          simp [past]
      | succ place =>
          have stays : start ∉ (start + (place + 1)) :: places := by
            simpa using first
          rw [List.eraseIdx_cons_succ, List.filter_cons_of_pos (by simpa using stays),
            ih fun i member => by have := later i member; omega, Nat.add_right_comm, Nat.add_assoc]

/-- Removing the rows at increasing places leaves those at all others. -/
theorem remove_eq (increasing : places.Pairwise (· < ·)) :
    t.remove places = { t with rows := without places t.rows } := by
  rw [remove]
  congr 1
  induction places with
  | nil => simp [without]
  | cons place rest ih =>
      obtain ⟨later, increasing⟩ := List.pairwise_cons.mp increasing
      rw [List.foldr_cons, ih increasing, without, List.eraseIdx_map,
        eraseIdx_filter_zipIdx (by simpa using later), Nat.zero_add]
      rfl

theorem increasing_chosen {filter : Record} {limit : Option Nat} :
    (t.chosen filter limit).Pairwise (· < ·) :=
  List.pairwise_findIdxs.sublist Result.page_sublist

end Table

namespace Engine

variable {m : Model} {e e' e₁ : Engine} {filter : Record} {limit transaction : Option Nat}
variable {rows : List Row} {n : Nat}

/-- A destruction that succeeds has hidden or removed the rows that it matched. -/
theorem destroy_ok {request : Request.Destroy}
    (done : destroy m request e = (.ok n, e')) :
    ∃ places, (e.database.openTable m.name).matching request.filter false request.limit =
        .ok places ∧ n = places.length ∧
      e' = e.setTable m.name
        (if m.paranoid && !request.force then
          (e.database.openTable m.name).setHidden true places
        else (e.database.openTable m.name).remove places) := by
  obtain ⟨t, work, rfl⟩ := onTable_ok_iff.mp done
  obtain ⟨places, matched, last⟩ := bind_eq_ok_iff.mp work
  cases last
  exact ⟨places, matched, rfl, rfl⟩

/-- A request with a filter and a limit answers the records at the chosen places. -/
theorem findAll_chosen (named : e.registry.Named)
    (found : findAll m { filter, limit, transaction } e = (.ok rows, e₁)) :
    rows.map (fun row => some row.data) =
      ((e.database.openTable m.name).chosen filter limit).map fun i =>
        (e.database.openTable m.name).rows[i]?.map (·.data) := by
  rw [findAll_run] at found
  obtain ⟨registered, known, selected⟩ := bind_eq_ok_iff.mp (Prod.ext_iff.mp found).1
  have name := named _ _ (Linking.model_ok known)
  have chosen := congrArg (List.map (Option.map (·.data))) (Loading.select_chosen selected)
  rw [name] at chosen
  simpa [Function.comp_def] using chosen

/-- Setting a table leaves the others as they are, whether they exist or not. -/
theorem table?_setTable_of_ne {name other : String} (t : Table) (ne : other ≠ name) :
    (e.setTable name t).database.table? other = e.database.table? other :=
  Dict.get?_insert_of_ne _ _ ne

/-- The rows that an update or a destruction reaches are those that a request with the same
filter and limit answers on the same store, and it reports their number. An update writes the
declared values into them, a destruction hides them if the model is paranoid and no force is
asked for, and removes them otherwise. All other rows of the table stay as they are and in their
order, and all other tables stay. -/
theorem writes_reach_found (named : e.registry.Named)
    (found : findAll m { filter, limit, transaction } e = (.ok rows, e₁)) :
    let t := e.database.openTable m.name
    let places := t.chosen filter limit
    rows.map (fun row => some row.data) = places.map (fun i => t.rows[i]?.map (·.data)) ∧
    (∀ (values : Record) (request : Request.Update) (n : Nat) (e' : Engine),
      request.filter = filter → request.limit = limit →
      update m values request e = (.ok n, e') →
      n = rows.length ∧
      e'.database.openTable m.name = { t with
        rows := t.rows.mapIdx fun i row =>
          if i ∈ places then row.extend (Table.declared m values) else row } ∧
      ∀ other, other ≠ m.name → e'.database.table? other = e.database.table? other) ∧
    ∀ (request : Request.Destroy) (n : Nat) (e' : Engine),
      request.filter = filter → request.limit = limit →
      destroy m request e = (.ok n, e') →
      n = rows.length ∧
      e'.database.openTable m.name = { t with
        rows := if m.paranoid && !request.force then
            t.rows.mapIdx fun i row => if i ∈ places then { row with hidden := true } else row
          else Table.without places t.rows } ∧
      ∀ other, other ≠ m.name → e'.database.table? other = e.database.table? other := by
  intro t places
  have shown := findAll_chosen named found
  have number : places.length = rows.length := by
    simpa using (congrArg List.length shown).symm
  refine ⟨shown, ?_, ?_⟩
  · rintro values request n e' rfl rfl done
    obtain ⟨matched, changed, matching, updated, rfl, rfl⟩ := update_ok done
    obtain rfl : matched = places := Table.matching_ok matching
    obtain rfl := Table.updateMany_ok updated
    refine ⟨number, ?_, fun other ne => table?_setTable_of_ne _ ne⟩
    rw [setTable, Database.openTable_setTable_self,
      Table.modifyAll_eq_mapIdx Table.nodup_chosen]
  · rintro request n e' rfl rfl done
    obtain ⟨matched, matching, rfl, rfl⟩ := destroy_ok done
    obtain rfl : matched = places := Table.matching_ok matching
    refine ⟨number, ?_, fun other ne => table?_setTable_of_ne _ ne⟩
    rw [setTable, Database.openTable_setTable_self]
    split
    · exact congrArg (Table.mk · t.counter) (Table.modifyAll_eq_mapIdx Table.nodup_chosen)
    · exact Table.remove_eq Table.increasing_chosen

section Tickets

/-- A ticket, open or closed. Tickets that are destroyed are only hidden. -/
def ticket : Model :=
  { name := "Ticket"
    attributes := [.identity "id", { name := "state" }]
    paranoid := true }

/-- A stored ticket. -/
def ticketRow (id : Int) (state : String) (hidden : Bool) : StoredRow :=
  { data := [("id", .ofInt id), ("state", .str state)], hidden }

/-- Five tickets. The first of the four open ones is hidden. -/
def desk : Engine where
  registry := [("Ticket", ticket)]
  database :=
    [("Ticket",
      { rows :=
          [ticketRow 1 "open" true, ticketRow 2 "open" false, ticketRow 3 "closed" false,
            ticketRow 4 "open" false, ticketRow 5 "open" false]
        counter := 5 })]

/-- The first two open tickets that are shown are the second and the fourth one. These are
closed by an update, hidden by a destruction and removed by one that is forced. -/
theorem writes_reach_found_tickets :
    let wanted : Record := [("state", .str "open")]
    (findAll ticket { filter := wanted, limit := some 2 } desk).1 =
        .ok [{ model := ticket, data := (ticketRow 2 "open" false).data },
          { model := ticket, data := (ticketRow 4 "open" false).data }] ∧
      ((update ticket [("state", .str "closed")] { filter := wanted, limit := some 2 } desk
          ).2.database.openTable "Ticket").rows =
        [ticketRow 1 "open" true, ticketRow 2 "closed" false, ticketRow 3 "closed" false,
          ticketRow 4 "closed" false, ticketRow 5 "open" false] ∧
      ((destroy ticket { filter := wanted, limit := some 2 } desk).2.database.openTable
          "Ticket").rows =
        [ticketRow 1 "open" true, ticketRow 2 "open" true, ticketRow 3 "closed" false,
          ticketRow 4 "open" true, ticketRow 5 "open" false] ∧
      ((destroy ticket { filter := wanted, limit := some 2, force := true } desk
          ).2.database.openTable "Ticket").rows =
        [ticketRow 1 "open" true, ticketRow 3 "closed" false, ticketRow 5 "open" false] := by
  intro wanted
  have named : desk.registry.Named := Registry.named_nil.register (m := ticket) rfl
  have shown : findAll ticket { filter := wanted, limit := some 2 } desk =
      (.ok [{ model := ticket, data := (ticketRow 2 "open" false).data },
        { model := ticket, data := (ticketRow 4 "open" false).data }], desk) :=
    (findAll_unsorted rfl rfl rfl rfl rfl).trans rfl
  have places : (desk.database.openTable ticket.name).chosen wanted (some 2) = [1, 3] := rfl
  obtain ⟨-, updated, destroyed⟩ := writes_reach_found named shown
  have closed := (updated [("state", .str "closed")] { filter := wanted, limit := some 2 } 2 _
    rfl rfl rfl).2.1
  have hid := (destroyed { filter := wanted, limit := some 2 } 2 _ rfl rfl rfl).2.1
  have removed := (destroyed { filter := wanted, limit := some 2, force := true } 2 _ rfl rfl
    rfl).2.1
  rw [places] at closed hid removed
  exact ⟨congrArg Prod.fst shown, congrArg Table.rows closed, congrArg Table.rows hid,
    congrArg Table.rows removed⟩

end Tickets

end Engine

end RecordGraph
