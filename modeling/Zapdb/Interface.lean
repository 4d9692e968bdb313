import Zapdb.Marshal
import Zapdb.Unmarshal

/-!
# The package's entry points

Outside the `grpc` build the package exposes its codec through three interfaces and
four functions:

* `Marshaler`, `Unmarshaler`, `Sizer` — one method each, implemented by the seven
  records;
* `Marshal(m)`, `Unmarshal(data, m)`, `Size(m)` — the method, called through the
  interface;
* `MarshalOptions{}.MarshalAppend(b, m)` — `b` followed by what `m.Marshal()` returns,
  or its error.

A record's `Unmarshal` is written over the target's `int`, so `Unmarshaler` takes an
`IntSize` as well; `Checksum.Unmarshal` converts nothing and ignores it.
-/

namespace Zapdb

/-- `Marshaler`: `Marshal() ([]byte, error)`. -/
class Marshaler (α : Type) where
  marshal : α → Exit Bytes

/-- `Unmarshaler`: `Unmarshal([]byte) error`, run on the receiver's state. -/
class Unmarshaler (α : Type) where
  unmarshal : IntSize → Bytes → GoM α Unit

/-- `Sizer`: `Size() int`. -/
class Sizer (α : Type) where
  size : α → Exit Nat

instance : Marshaler KV := ⟨KV.marshal⟩
instance : Marshaler KVList := ⟨KVList.marshal⟩
instance : Marshaler ManifestChange := ⟨ManifestChange.marshal⟩
instance : Marshaler ManifestChangeSet := ⟨ManifestChangeSet.marshal⟩
instance : Marshaler DataKey := ⟨DataKey.marshal⟩
instance : Marshaler Checksum := ⟨Checksum.marshal⟩
instance : Marshaler Match := ⟨Match.marshal⟩

instance : Unmarshaler KV := ⟨KV.unmarshal⟩
instance : Unmarshaler KVList := ⟨KVList.unmarshal⟩
instance : Unmarshaler ManifestChange := ⟨ManifestChange.unmarshal⟩
instance : Unmarshaler ManifestChangeSet := ⟨ManifestChangeSet.unmarshal⟩
instance : Unmarshaler DataKey := ⟨DataKey.unmarshal⟩
instance : Unmarshaler Checksum := ⟨fun _ => Checksum.unmarshal⟩
instance : Unmarshaler Match := ⟨Match.unmarshal⟩

instance : Sizer KV := ⟨fun k => .ok k.size⟩
instance : Sizer KVList := ⟨KVList.size⟩
instance : Sizer ManifestChange := ⟨fun m => .ok m.size⟩
instance : Sizer ManifestChangeSet := ⟨fun m => .ok m.size⟩
instance : Sizer DataKey := ⟨fun d => .ok d.size⟩
instance : Sizer Checksum := ⟨fun c => .ok c.size⟩
instance : Sizer Match := ⟨fun m => .ok m.size⟩

section

variable {α : Type}

/-- `Marshal(m Marshaler)`. -/
@[reducible] def marshal [Marshaler α] (m : α) : Exit Bytes := Marshaler.marshal m

/-- `Unmarshal(data, m Unmarshaler)`, on `m`'s state. -/
@[reducible] def unmarshal [Unmarshaler α] (w : IntSize) (data : Bytes) : GoM α Unit :=
  Unmarshaler.unmarshal w data

/-- `Size(m Sizer)`. -/
@[reducible] def size [Sizer α] (m : α) : Exit Nat := Sizer.size m

/-- `MarshalOptions`, an empty struct. -/
structure MarshalOptions : Type

/-- `MarshalOptions.MarshalAppend(b, m)`: `m.Marshal()`, then `append(b, data...)`; an
error is returned as it is. -/
def MarshalOptions.marshalAppend [Marshaler α] (_ : MarshalOptions) (b : Bytes) (m : α) :
    Exit Bytes := do
  let data ← Marshaler.marshal m
  pure (b ++ data)

/-- Where `Marshal` succeeds, `MarshalAppend` returns the prefix followed by its bytes. -/
theorem MarshalOptions.marshalAppend_of_ok [Marshaler α] (o : MarshalOptions) (b : Bytes)
    {m : α} {e : Bytes} (h : marshal m = .ok e) : o.marshalAppend b m = .ok (b ++ e) := by
  rw [MarshalOptions.marshalAppend, show Marshaler.marshal m = .ok e from h]
  rfl

end

end Zapdb
