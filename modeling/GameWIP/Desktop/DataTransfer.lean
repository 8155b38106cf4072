import GameWIP.Desktop.Events

/-!
# Data-transfer values

The portable values of `desktop/data_transfer.h`. A string is its UTF-8 bytes, and a path its wide
native string.
-/

namespace Desktop

namespace DataTransfer

open Events (PixelSize)

/-- A native path. -/
abbrev Path := List UInt16

inductive FormatKind where
  | text
  | fileList
  | image
  | custom
  deriving DecidableEq, Repr

structure Format where
  kind : FormatKind := .text
  customName : List UInt8 := []
  deriving DecidableEq, Repr

/-- An item as the caller lends it. -/
inductive ItemView where
  | text (text : List UInt8)
  | fileList (paths : List Path)
  | image (size : PixelSize) (rowStrideBytes : Option Nat) (rgba8 : List UInt8)
  | custom (formatName : List UInt8) (bytes : List UInt8)
  deriving DecidableEq, Repr

/-- An item that owns its data. -/
inductive Item where
  | text (text : List UInt8)
  | fileList (paths : List Path)
  | image (size : PixelSize) (rgba8 : List UInt8)
  | customData (formatName : List UInt8) (bytes : List UInt8)
  deriving DecidableEq, Repr

abbrev Payload := List Item

end DataTransfer

end Desktop
