import Hivebook.Connectors.Responses
import Hivebook.Server.Readers

/-!
# What was put is read back

`Store.Put` answers the key under which `Store.Get` and `Store.Delete` find the object again.
The sizes are bounded in two places: `httpGet` delivers a body of up to `maxArtifactBytes`, and
`Store.Get` reads no more than `maxObjectBytes` of an object.

## Main definitions

* `Delivered` — a body that a fetch can deliver.
* `place` — the bucket and the object that `Store.Put` uses.
* `ReadsBack` — an artifact that is put is read back whole and is deleted alone.

## Main results

* `delivered_iff` — every body within the limit can be delivered, and no other.
* `readsBack_iff` — **what was put reads back exactly when it is not longer than what is read.**
* `export_cut_short` — an export that `httpGet` delivers and `Store.Get` cuts short.
-/

namespace Hivebook
namespace Connectors

/-! ### What a fetch delivers -/

/-- A body that `httpGet` can deliver. -/
def Delivered (body : Bytes) : Prop := ∃ url answer, httpGet url answer = .ok body

/-- Every body within the limit can be delivered, and no other. -/
theorem delivered_iff (body : Bytes) : Delivered body ↔ body.length ≤ maxArtifactBytes := by
  constructor
  · rintro ⟨url, answer, h⟩
    obtain ⟨_, _, _, _, hlen, _⟩ := httpGet_eq_ok_iff.mp h
    exact hlen
  · intro hlen
    have hlow : 200 ≤ 200 := le_refl 200
    have hhigh : 200 < 300 := by decide
    exact ⟨"", .ok ⟨200, "", "", 0, body⟩,
      httpGet_eq_ok_iff.mpr ⟨_, rfl, hlow, hhigh, hlen, rfl⟩⟩

end Connectors

namespace Storage

open Connectors

/-! ### Where an artifact is put -/

/-- The bucket and the object that `Store.Put` writes. -/
def place (env connector region tenantID key : String) : String × String :=
  (bucket env connector region, tenantID ++ "/" ++ key)

variable {env connector region tenantID key contentType : String} {body : Bytes}
  {b b' : Bool} {w w' : World} {ls : List (Performed World Choice Cmd)} {storedKey : String}

/-- A put that succeeds has written its one object, and answers the key that is cut into it. -/
theorem returns_putObject
    (h : service.Returns (putObject env connector region tenantID key contentType body) b w ls
      (.ok storedKey) b' w') :
    cut storedKey = some (place env connector region tenantID key) ∧
      w'.objects = Function.update w.objects (place env connector region tenantID key)
        (some ⟨contentType, body⟩) := by
  obtain ⟨t, ls', rfl, hrest⟩ := Machine.Returns.of_call h
  cases hreply : (service.perform t.choice (b || t.cancel) w
      (.putObject (bucket env connector region) (tenantID ++ "/" ++ key) contentType body)).2 with
  | error e =>
    rw [hreply] at hrest
    obtain ⟨-, hr, -⟩ := hrest.of_pure
    cases hr
  | ok u =>
    rw [hreply] at hrest
    obtain ⟨-, hr, -, rfl⟩ := hrest.of_pure
    obtain rfl := Except.ok.inj hr
    refine ⟨cut_objectKey env connector region (tenantID ++ "/" ++ key), ?_⟩
    rw [service_state, if_pos (of_reply_eq_ok hreply).1]
    unfold Cmd.effect place
    dsimp only [World.tick]

/-- A delete that succeeds has removed the object its key is cut into, and no other. -/
theorem returns_deleteObject {o : String × String} (hcut : cut storedKey = some o)
    (h : service.Returns (deleteObject storedKey) b w ls (.ok ()) b' w') :
    w'.objects = Function.update w.objects o none := by
  unfold deleteObject at h
  rw [hcut] at h
  obtain ⟨t, ls', rfl, hrest⟩ := Machine.Returns.of_call h
  cases hreply : (service.perform t.choice (b || t.cancel) w (.deleteObject o.1 o.2)).2 with
  | error e =>
    rw [hreply] at hrest
    obtain ⟨-, hr, -⟩ := hrest.of_pure
    cases hr
  | ok u =>
    rw [hreply] at hrest
    obtain ⟨-, -, -, rfl⟩ := hrest.of_pure
    rw [service_state, if_pos (of_reply_eq_ok hreply).1]
    rfl

/-! ### Reading it back -/

/-- An artifact that is put is read back whole, while its object stands, and a delete by its
key removes that object alone. -/
structure ReadsBack (env connector region tenantID key contentType : String) (body : Bytes) :
    Prop where
  /-- The stored key is cut into the bucket and the object that were put. -/
  found : ∀ b w ls storedKey b' w',
    service.Returns (putObject env connector region tenantID key contentType body) b w ls
      (.ok storedKey) b' w' → cut storedKey = some (place env connector region tenantID key)
  /-- What is read, as long as the object is what the put left, is what was put. -/
  read : ∀ b w ls storedKey b' w' objects,
    service.Returns (putObject env connector region tenantID key contentType body) b w ls
      (.ok storedKey) b' w' →
    objects (place env connector region tenantID key) =
      w'.objects (place env connector region tenantID key) →
    get storedKey objects = .ok (body, contentType)
  /-- A delete leaves everything but that object. -/
  deleted : ∀ b w ls storedKey b' w' b₁ v ls₁ b₂ v',
    service.Returns (putObject env connector region tenantID key contentType body) b w ls
      (.ok storedKey) b' w' →
    service.Returns (deleteObject storedKey) b₁ v ls₁ (.ok ()) b₂ v' →
    v'.objects = Function.update v.objects (place env connector region tenantID key) none

/-- What is read of an object that was put is the beginning of its body. -/
theorem get_of_put {objects : String × String → Option StoredObject}
    (h : service.Returns (putObject env connector region tenantID key contentType body) b w ls
      (.ok storedKey) b' w')
    (hobj : objects (place env connector region tenantID key) =
      w'.objects (place env connector region tenantID key)) :
    get storedKey objects = .ok (body.take maxObjectBytes, contentType) := by
  obtain ⟨hcut, hw⟩ := returns_putObject h
  rw [hw, Function.update_self] at hobj
  unfold get
  rw [hcut]
  dsimp only
  rw [hobj]

/-- A put can succeed. -/
theorem exists_put (env connector region tenantID key contentType : String) (body : Bytes) :
    ∃ b w ls storedKey b' w', service.Returns
      (putObject env connector region tenantID key contentType body) b w ls
      (.ok storedKey) b' w' :=
  ⟨false, ⟨Database.empty, fun _ => none, 0⟩, _, _, _, _,
    .call ⟨false, ⟨.applied, 0, fun _ => .error .canceled⟩⟩ (.pure _ _ _)⟩

/-- **What was put reads back exactly when it is not longer than what is read.** -/
theorem readsBack_iff (env connector region tenantID key contentType : String) (body : Bytes) :
    ReadsBack env connector region tenantID key contentType body ↔
      body.length ≤ maxObjectBytes := by
  constructor
  · intro h
    obtain ⟨b, w, ls, storedKey, b', w', hput⟩ :=
      exists_put env connector region tenantID key contentType body
    have hwhole := h.read b w ls storedKey b' w' w'.objects hput rfl
    rw [get_of_put hput rfl] at hwhole
    have htake : body.take maxObjectBytes = body := congrArg Prod.fst (Except.ok.inj hwhole)
    rw [← htake, List.length_take]
    exact Nat.min_le_left _ _
  · intro hlen
    refine ⟨fun b w ls storedKey b' w' hput => (returns_putObject hput).1, ?_, ?_⟩
    · intro b w ls storedKey b' w' objects hput hobj
      rw [get_of_put hput hobj, List.take_of_length_le hlen]
    · intro b w ls storedKey b' w' b₁ v ls₁ b₂ v' hput hdel
      exact returns_deleteObject (returns_putObject hput).1 hdel

/-- An export of a byte more than is read is delivered, and is cut short when it is read. -/
theorem export_cut_short : ∃ body : Bytes, Delivered body ∧
    ¬ ReadsBack "prod" "gdocs" "eu" "acme" "gdocs/hash" "text/html" body := by
  refine ⟨List.replicate (maxObjectBytes + 1) 0, ?_, ?_⟩
  · rw [delivered_iff, List.length_replicate]
    exact Nat.pow_lt_pow_right (by decide) (by decide)
  · rw [readsBack_iff, List.length_replicate]
    omega

end Storage
end Hivebook
