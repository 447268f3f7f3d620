import GameFleet.Manifest
import GameFleet.Proofs.Json.Record
import GameFleet.Proofs.Table
import GameFleet.Proofs.Time.Stamp
import GameFleet.Proofs.Uid

/-!
# Objects read back from their text

Instances, collections, pods, nodes and manifests of them are what is read from the text
that they are written as (`objects_roundTrip`). Templates, specs and statuses are so
without exception, and metadata as far as its numbers and timestamps can be written: a
version of 64 bits, and instants of the years 0 to 9999 outside leap seconds.
-/

namespace GameFleet

open Form (restores restores_nat)
open Time (Instant)

/-! ## Templates -/

instance : LawfulNamed Protocol := ⟨fun p => by cases p <;> decide⟩

instance : Form.Lossless ContainerPort where
  restores p := ContainerPort.fields.restores (by decide) <|
    .cons (.optional (fun _ _ => restores _) rfl) <|
    .cons (.mandatory (restores _)) <|
    .cons (.optional (fun _ _ => restores _) rfl) <|
    .cons (.defaulted (restores _)) .nil

instance : Form.Lossless EnvVar where
  restores e := EnvVar.fields.restores (by decide) <|
    .cons (.mandatory (restores _)) <|
    .cons (.mandatory (restores _)) .nil

instance : Form.Lossless ResourceLimits where
  restores l := ResourceLimits.fields.restores (by decide) <|
    .cons (.optional (fun _ _ => restores _) rfl) <|
    .cons (.optional (fun _ _ => restores _) rfl) .nil

instance : Form.Lossless Container where
  restores c := Container.fields.restores (by decide) <|
    .cons (.mandatory (restores _)) <|
    .cons (.mandatory (restores _)) <|
    .cons (.defaulted (restores _)) <|
    .cons (.listed (fun _ _ => restores _) rfl) <|
    .cons (.listed (fun _ _ => restores _) rfl) .nil

instance : Form.Lossless Template where
  restores t := Template.fields.restores (by decide) <|
    .cons (.mandatory (restores _)) .nil

/-! ## Specs and statuses -/

instance : LawfulNamed PodPhase := ⟨fun p => by cases p <;> decide⟩

instance : LawfulNamed RestartPolicy := ⟨fun p => by cases p <;> decide⟩

instance : LawfulNamed AddressType := ⟨fun t => by cases t <;> decide⟩

instance : LawfulNamed Health := ⟨fun h => by cases h <;> decide⟩

instance : LawfulNamed SessionState := ⟨fun s => by cases s <;> decide⟩

instance : LawfulNamed FailBehavior := ⟨fun b => by cases b <;> decide⟩

instance : LawfulNamed CollectionHealth := ⟨fun h => by cases h <;> decide⟩

instance : Form.Lossless PodSpec where
  restores s := PodSpec.fields.restores (by decide) <|
    .cons (.mandatory (restores _)) <|
    .cons (.defaulted (restores _)) <|
    .cons (.optional (fun _ _ => restores _) rfl) .nil

instance : Form.Lossless PodStatus where
  restores s := PodStatus.fields.restores (by decide) <|
    .cons (.defaulted (restores _)) .nil

instance : Form.Lossless NodeAddress where
  restores a := NodeAddress.fields.restores (by decide) <|
    .cons (.mandatory (restores _)) <|
    .cons (.mandatory (restores _)) .nil

instance : Form.Lossless NodeStatus where
  restores s := NodeStatus.fields.restores (by decide) <|
    .cons (.defaulted (restores _)) .nil

instance : Form.Lossless GameServerSpec where
  restores s := GameServerSpec.fields.restores (by decide) <|
    .cons (.mandatory (restores _)) <|
    .cons (.listed (fun _ _ => restores _) rfl) .nil

instance : Form.Lossless GameServerStatus where
  restores s := GameServerStatus.fields.restores (by decide) <|
    .cons (.defaulted (restores _)) <|
    .cons (.defaulted (restores _)) <|
    .cons (.optional (fun _ _ => restores _) rfl) <|
    .cons (.optional (fun _ _ => restores _) rfl) <|
    .cons (.optional (fun _ _ => restores _) rfl) <|
    .cons (.defaulted (restores _)) <|
    .cons (.defaulted (restores _)) .nil

instance : Form.Lossless Autoscaler where
  restores a := Autoscaler.fields.restores (by decide) <|
    .cons (.mandatory (restores _)) <|
    .cons (.mandatory (restores _)) <|
    .cons (.mandatory (restores _)) <|
    .cons (.mandatory (restores _)) <|
    .cons (.defaulted (restores _)) <|
    .cons (.defaulted (restores _)) <|
    .cons (.mandatory (restores _)) <|
    .cons (.optional (fun _ _ => restores _) rfl) .nil

instance : Form.Lossless CollectionSpec where
  restores s := CollectionSpec.fields.restores (by decide) <|
    .cons (.mandatory (restores _)) <|
    .cons (.mandatory (restores _)) <|
    .cons (.listed (fun _ _ => restores _) rfl) <|
    .cons (.defaulted (restores _)) <|
    .cons (.defaulted (restores _)) <|
    .cons (.optional (fun _ _ => restores _) rfl) .nil

instance : Form.Lossless CollectionStatus where
  restores s := CollectionStatus.fields.restores (by decide) <|
    .cons (.defaulted (restores _)) <|
    .cons (.optional (fun _ _ => restores _) rfl) <|
    .cons (.defaulted (restores _)) <|
    .cons (.defaulted (restores _)) .nil

/-! ## Metadata -/

instance : Form.Lossless Uid where
  restores u :=
    { plain := .text _
      ne_null := by simp [Form.write]
      read := by
        simp [Form.read, Form.write, Json.document, Document.readParsed, Uid.ofText?_toText] }

theorem Form.restores_instant {t : Instant} (h : t.Ordinary) : Restores t where
  plain := .text _
  ne_null := by simp [Form.write]
  read := by
    simp [Form.read, Form.write, Json.document, Document.readParsed, h.ofStampLenient?_toStamp]

theorem Document.readPairsWith_texts (es : List (String × String)) :
    readPairsWith readString (Json.documentMembers (es.map fun e => (e.1, .text e.2))) = .ok es := by
  induction es with
  | nil => rfl
  | cons e es ih =>
    simp only [List.map_cons, Json.documentMembers, Json.document, readPairsWith, memberName, readString,
      ih, bind, Except.bind]
    rfl

instance : Form.Lossless Labels where
  restores ls :=
    { plain := .object fun m hm => by
        obtain ⟨e, -, rfl⟩ := List.mem_map.1 hm
        exact .text _
      ne_null := by simp [Form.write]
      read := by
        simp [Form.read, Form.write, Json.document, Document.readPairs, bind, Except.bind,
          Document.readPairsWith_texts, Document.close, pure, Except.pure, Except.map, Table.ofList_entries] }

instance : Form.Lossless OwnerReference where
  restores r := OwnerReference.fields.restores (by decide) <|
    .cons (.mandatory (restores _)) <|
    .cons (.mandatory (restores _)) <|
    .cons (.optional (fun _ _ => restores _) rfl) <|
    .cons (.defaulted (restores _)) .nil

/-- The version has 64 bits, and the timestamps have years of four digits and lie in no
leap second. -/
structure Meta.Ordinary (m : Meta) : Prop where
  version_lt : m.version < UInt64.size
  created : ∀ t ∈ m.created, t.Ordinary
  deletion : ∀ t ∈ m.deletion, t.Ordinary

theorem Meta.Ordinary.restores {m : Meta} (h : m.Ordinary) : Form.Restores m :=
  Meta.fields.restores (by decide) <|
    .cons (.mandatory (Form.restores _)) <|
    .cons (.defaulted (Form.restores _)) <|
    .cons (.optional (fun _ _ => Form.restores _) rfl) <|
    .cons (.filled (Form.restores _) fun hempty => by rw [Table.eq_empty_of_isEmpty hempty]; rfl) <|
    .cons (.listed (fun _ _ => Form.restores _) rfl) <|
    .cons (.defaulted (restores_nat h.version_lt)) <|
    .cons (.optional (fun t ht => Form.restores_instant (h.created t ht)) rfl) <|
    .cons (.optional (fun t ht => Form.restores_instant (h.deletion t ht)) rfl) .nil

/-! ## Objects -/

theorem GameServer.restores {g : GameServer} (h : g.metadata.Ordinary) : Form.Restores g :=
  GameServer.fields.restores (by decide) <|
    .cons (.mandatory h.restores) <|
    .cons (.mandatory (Form.restores _)) <|
    .cons (.defaulted (Form.restores _)) .nil

theorem Collection.restores {c : Collection} (h : c.metadata.Ordinary) : Form.Restores c :=
  Collection.fields.restores (by decide) <|
    .cons (.mandatory h.restores) <|
    .cons (.mandatory (Form.restores _)) <|
    .cons (.defaulted (Form.restores _)) .nil

theorem Pod.restores {p : Pod} (h : p.metadata.Ordinary) : Form.Restores p :=
  Pod.fields.restores (by decide) <|
    .cons (.mandatory h.restores) <|
    .cons (.defaulted (Form.restores _)) <|
    .cons (.defaulted (Form.restores _)) .nil

theorem Node.restores {n : Node} (h : n.metadata.Ordinary) : Form.Restores n :=
  Node.fields.restores (by decide) <|
    .cons (.mandatory h.restores) <|
    .cons (.defaulted (Form.restores _)) .nil

/-- The metadata of all objects of the manifest is ordinary. -/
structure Manifest.Ordinary (m : Manifest) : Prop where
  nodes : ∀ n ∈ m.nodes, n.metadata.Ordinary
  collections : ∀ c ∈ m.collections, c.metadata.Ordinary
  gameServers : ∀ g ∈ m.gameServers, g.metadata.Ordinary
  pods : ∀ p ∈ m.pods, p.metadata.Ordinary

theorem Manifest.Ordinary.restores {m : Manifest} (h : m.Ordinary) : Form.Restores m :=
  Manifest.fields.restores (by decide) <|
    .cons (.defaulted (Form.restores_list fun n hn => Node.restores (h.nodes n hn))) <|
    .cons (.defaulted (Form.restores_list fun c hc => Collection.restores (h.collections c hc))) <|
    .cons (.defaulted (Form.restores_list fun g hg => GameServer.restores (h.gameServers g hg))) <|
    .cons (.defaulted (Form.restores_list fun p hp => Pod.restores (h.pods p hp))) .nil

/-- Instances, collections, pods, nodes and manifests are read back from the text that
they are written as. -/
theorem objects_roundTrip :
    (∀ g : GameServer, g.metadata.Ordinary → Form.ofText (Form.toText g) = .ok g) ∧
    (∀ c : Collection, c.metadata.Ordinary → Form.ofText (Form.toText c) = .ok c) ∧
    (∀ p : Pod, p.metadata.Ordinary → Form.ofText (Form.toText p) = .ok p) ∧
    (∀ n : Node, n.metadata.Ordinary → Form.ofText (Form.toText n) = .ok n) ∧
    ∀ m : Manifest, m.Ordinary → Form.ofText (Form.toText m) = .ok m :=
  ⟨fun _ h => (GameServer.restores h).ofText_toText,
    fun _ h => (Collection.restores h).ofText_toText,
    fun _ h => (Pod.restores h).ofText_toText,
    fun _ h => (Node.restores h).ofText_toText,
    fun _ h => h.restores.ofText_toText⟩

/-- Metadata with every field set, its numbers and timestamps at the ends of what is
ordinary. -/
def Meta.specimen : Meta where
  name := "arena-0"
  ns := "default"
  uid := some ⟨0x6ba7b8109dad11d180b400c04fd430c8⟩
  labels := Table.empty.insert "team" "\"red\"\n"
  owners := [⟨"DedicatedGameServerCollection", "arena", none, true⟩]
  version := 18446744073709551615
  created := some ⟨253402300799, 999999999⟩
  deletion := some ⟨-62167219200, 120000000⟩

theorem objects_roundTrip_specimen :
    let g : GameServer := ⟨.specimen, ⟨default, [7777]⟩, .initial⟩
    let c : Collection := { (default : Collection) with metadata := .specimen }
    let p : Pod := ⟨.specimen, ⟨[], .never, some "node-1"⟩, ⟨.running⟩⟩
    let n : Node := ⟨.specimen, ⟨[⟨.internal, "10.0.0.1"⟩]⟩⟩
    let m : Manifest := ⟨[n], [c], [g], [p]⟩
    Form.ofText (Form.toText g) = .ok g ∧ Form.ofText (Form.toText c) = .ok c ∧
    Form.ofText (Form.toText p) = .ok p ∧ Form.ofText (Form.toText n) = .ok n ∧
    Form.ofText (Form.toText m) = .ok m := by
  have h : Meta.specimen.Ordinary := by
    refine ⟨by decide, ?_, ?_⟩
    · rintro t ⟨⟩
      exact ⟨by decide, by decide, by decide⟩
    · rintro t ⟨⟩
      exact ⟨by decide, by decide, by decide⟩
  intro g c p n m
  have hm : m.Ordinary := by
    constructor <;> simpa [m] using h
  exact ⟨objects_roundTrip.1 g h, objects_roundTrip.2.1 c h, objects_roundTrip.2.2.1 p h,
    objects_roundTrip.2.2.2.1 n h, objects_roundTrip.2.2.2.2 m hm⟩

end GameFleet
