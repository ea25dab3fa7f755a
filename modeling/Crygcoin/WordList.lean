import Mathlib.Data.List.Chain
import Mathlib.Data.List.Nodup

namespace Crygcoin.WordList

/-! `WordList::English` of `WordList.h`: the 1626 words of a mnemonic seed, each a string of lowercase
letters, in alphabetical order. A word is the list of its characters. -/

def English : List (List Char) := [
  ['a', 'b', 'b', 'e', 'y'], ['a', 'b', 'd', 'u', 'c', 't', 's'], ['a', 'b', 'i', 'l', 'i', 't', 'y'],
  ['a', 'b', 'l', 'a', 'z', 'e'], ['a', 'b', 'n', 'o', 'r', 'm', 'a', 'l'], ['a', 'b', 'o', 'r', 't'],
  ['a', 'b', 'r', 'a', 's', 'i', 'v', 'e'], ['a', 'b', 's', 'o', 'r', 'b'], ['a', 'b', 'y', 's', 's'],
  ['a', 'c', 'a', 'd', 'e', 'm', 'y'], ['a', 'c', 'e', 's'], ['a', 'c', 'h', 'i', 'n', 'g'],
  ['a', 'c', 'i', 'd', 'i', 'c'], ['a', 'c', 'o', 'u', 's', 't', 'i', 'c'], ['a', 'c', 'q', 'u', 'i', 'r', 'e'],
  ['a', 'c', 'r', 'o', 's', 's'], ['a', 'c', 't', 'r', 'e', 's', 's'], ['a', 'c', 'u', 'm', 'e', 'n'],
  ['a', 'd', 'a', 'p', 't'], ['a', 'd', 'd', 'i', 'c', 't', 'e', 'd'], ['a', 'd', 'e', 'p', 't'],
  ['a', 'd', 'h', 'e', 's', 'i', 'v', 'e'], ['a', 'd', 'j', 'u', 's', 't'], ['a', 'd', 'o', 'p', 't'],
  ['a', 'd', 'r', 'e', 'n', 'a', 'l', 'i', 'n'], ['a', 'd', 'u', 'l', 't'],
  ['a', 'd', 'v', 'e', 'n', 't', 'u', 'r', 'e'], ['a', 'e', 'r', 'i', 'a', 'l'], ['a', 'f', 'a', 'r'],
  ['a', 'f', 'f', 'a', 'i', 'r'], ['a', 'f', 'i', 'e', 'l', 'd'], ['a', 'f', 'l', 'o', 'a', 't'],
  ['a', 'f', 'o', 'o', 't'], ['a', 'f', 'r', 'a', 'i', 'd'], ['a', 'f', 't', 'e', 'r'],
  ['a', 'g', 'a', 'i', 'n', 's', 't'], ['a', 'g', 'e', 'n', 'd', 'a'], ['a', 'g', 'g', 'r', 'a', 'v', 'a', 't', 'e'],
  ['a', 'g', 'i', 'l', 'e'], ['a', 'g', 'l', 'o', 'w'], ['a', 'g', 'n', 'o', 's', 't', 'i', 'c'],
  ['a', 'g', 'o', 'n', 'y'], ['a', 'g', 'r', 'e', 'e', 'd'], ['a', 'h', 'e', 'a', 'd'], ['a', 'i', 'd', 'e', 'd'],
  ['a', 'i', 'l', 'm', 'e', 'n', 't', 's'], ['a', 'i', 'm', 'l', 'e', 's', 's'], ['a', 'i', 'r', 'p', 'o', 'r', 't'],
  ['a', 'i', 's', 'l', 'e'], ['a', 'j', 'a', 'r'], ['a', 'k', 'i', 'n'], ['a', 'l', 'a', 'r', 'm', 's'],
  ['a', 'l', 'b', 'u', 'm'], ['a', 'l', 'c', 'h', 'e', 'm', 'y'], ['a', 'l', 'e', 'r', 't', 's'],
  ['a', 'l', 'g', 'e', 'b', 'r', 'a'], ['a', 'l', 'k', 'a', 'l', 'i', 'n', 'e'], ['a', 'l', 'l', 'e', 'y'],
  ['a', 'l', 'm', 'o', 's', 't'], ['a', 'l', 'o', 'o', 'f'], ['a', 'l', 'p', 'i', 'n', 'e'],
  ['a', 'l', 'r', 'e', 'a', 'd', 'y'], ['a', 'l', 's', 'o'], ['a', 'l', 't', 'i', 't', 'u', 'd', 'e'],
  ['a', 'l', 'u', 'm', 'n', 'i'], ['a', 'l', 'w', 'a', 'y', 's'], ['a', 'm', 'a', 'z', 'e'],
  ['a', 'm', 'b', 'u', 's', 'h'], ['a', 'm', 'e', 'n', 'd', 'e', 'd'], ['a', 'm', 'i', 'd', 's', 't'],
  ['a', 'm', 'm', 'o'], ['a', 'm', 'n', 'e', 's', 't', 'y'], ['a', 'm', 'o', 'n', 'g'], ['a', 'm', 'p', 'l', 'y'],
  ['a', 'm', 'u', 's', 'e', 'd'], ['a', 'n', 'c', 'h', 'o', 'r'], ['a', 'n', 'd', 'r', 'o', 'i', 'd'],
  ['a', 'n', 'e', 'c', 'd', 'o', 't', 'e'], ['a', 'n', 'g', 'l', 'e', 'd'], ['a', 'n', 'k', 'l', 'e'],
  ['a', 'n', 'n', 'o', 'y', 'e', 'd'], ['a', 'n', 's', 'w', 'e', 'r', 's'], ['a', 'n', 't', 'i', 'c', 's'],
  ['a', 'n', 'v', 'i', 'l'], ['a', 'n', 'x', 'i', 'e', 't', 'y'], ['a', 'n', 'y', 'b', 'o', 'd', 'y'],
  ['a', 'p', 'a', 'r', 't'], ['a', 'p', 'e', 'x'], ['a', 'p', 'h', 'i', 'd'], ['a', 'p', 'l', 'o', 'm', 'b'],
  ['a', 'p', 'o', 'l', 'o', 'g', 'y'], ['a', 'p', 'p', 'l', 'y'], ['a', 'p', 'r', 'i', 'c', 'o', 't'],
  ['a', 'p', 't', 'i', 't', 'u', 'd', 'e'], ['a', 'q', 'u', 'a', 'r', 'i', 'u', 'm'],
  ['a', 'r', 'b', 'i', 't', 'r', 'a', 'r', 'y'], ['a', 'r', 'c', 'h', 'e', 'r'], ['a', 'r', 'd', 'e', 'n', 't'],
  ['a', 'r', 'e', 'n', 'a'], ['a', 'r', 'g', 'u', 'e'], ['a', 'r', 'i', 's', 'e', 's'], ['a', 'r', 'm', 'y'],
  ['a', 'r', 'o', 'u', 'n', 'd'], ['a', 'r', 'r', 'o', 'w'], ['a', 'r', 's', 'e', 'n', 'i', 'c'],
  ['a', 'r', 't', 'i', 's', 't', 'i', 'c'], ['a', 's', 'c', 'e', 'n', 'd'], ['a', 's', 'h', 't', 'r', 'a', 'y'],
  ['a', 's', 'i', 'd', 'e'], ['a', 's', 'k', 'e', 'd'], ['a', 's', 'l', 'e', 'e', 'p'],
  ['a', 's', 'p', 'i', 'r', 'e'], ['a', 's', 's', 'o', 'r', 't', 'e', 'd'], ['a', 's', 'y', 'l', 'u', 'm'],
  ['a', 't', 'h', 'l', 'e', 't', 'e'], ['a', 't', 'l', 'a', 's'], ['a', 't', 'o', 'm'],
  ['a', 't', 'r', 'i', 'u', 'm'], ['a', 't', 't', 'i', 'r', 'e'], ['a', 'u', 'b', 'u', 'r', 'n'],
  ['a', 'u', 'c', 't', 'i', 'o', 'n', 's'], ['a', 'u', 'd', 'i', 'o'], ['a', 'u', 'g', 'u', 's', 't'],
  ['a', 'u', 'n', 't'], ['a', 'u', 's', 't', 'e', 'r', 'e'], ['a', 'u', 't', 'u', 'm', 'n'],
  ['a', 'v', 'a', 't', 'a', 'r'], ['a', 'v', 'i', 'd', 'l', 'y'], ['a', 'v', 'o', 'i', 'd'],
  ['a', 'w', 'a', 'k', 'e', 'n', 'e', 'd'], ['a', 'w', 'e', 's', 'o', 'm', 'e'], ['a', 'w', 'f', 'u', 'l'],
  ['a', 'w', 'k', 'w', 'a', 'r', 'd'], ['a', 'w', 'n', 'i', 'n', 'g'], ['a', 'w', 'o', 'k', 'e', 'n'],
  ['a', 'x', 'e', 's'], ['a', 'x', 'i', 's'], ['a', 'x', 'l', 'e'], ['a', 'z', 't', 'e', 'c'],
  ['a', 'z', 'u', 'r', 'e'], ['b', 'a', 'b', 'y'], ['b', 'a', 'c', 'o', 'n'], ['b', 'a', 'd', 'g', 'e'],
  ['b', 'a', 'f', 'f', 'l', 'e', 's'], ['b', 'a', 'g', 'p', 'i', 'p', 'e'], ['b', 'a', 'i', 'l', 'e', 'd'],
  ['b', 'a', 'k', 'e', 'r', 'y'], ['b', 'a', 'l', 'd', 'i', 'n', 'g'], ['b', 'a', 'm', 'b', 'o', 'o'],
  ['b', 'a', 'n', 'j', 'o'], ['b', 'a', 'p', 't', 'i', 's', 'm'], ['b', 'a', 's', 'i', 'n'],
  ['b', 'a', 't', 'c', 'h'], ['b', 'a', 'w', 'l', 'e', 'd'], ['b', 'a', 'y', 's'],
  ['b', 'e', 'c', 'a', 'u', 's', 'e'], ['b', 'e', 'e', 'r'], ['b', 'e', 'f', 'i', 't'], ['b', 'e', 'g', 'u', 'n'],
  ['b', 'e', 'h', 'i', 'n', 'd'], ['b', 'e', 'i', 'n', 'g'], ['b', 'e', 'l', 'o', 'w'],
  ['b', 'e', 'm', 'u', 's', 'e', 'd'], ['b', 'e', 'n', 'c', 'h', 'e', 's'], ['b', 'e', 'r', 'r', 'i', 'e', 's'],
  ['b', 'e', 's', 't', 'e', 'd'], ['b', 'e', 't', 't', 'i', 'n', 'g'], ['b', 'e', 'v', 'e', 'l'],
  ['b', 'e', 'w', 'a', 'r', 'e'], ['b', 'e', 'y', 'o', 'n', 'd'], ['b', 'i', 'a', 's'],
  ['b', 'i', 'c', 'y', 'c', 'l', 'e'], ['b', 'i', 'd', 's'], ['b', 'i', 'f', 'o', 'c', 'a', 'l', 's'],
  ['b', 'i', 'g', 'g', 'e', 's', 't'], ['b', 'i', 'k', 'i', 'n', 'i'], ['b', 'i', 'm', 'o', 'n', 't', 'h', 'l', 'y'],
  ['b', 'i', 'n', 'o', 'c', 'u', 'l', 'a', 'r'], ['b', 'i', 'o', 'l', 'o', 'g', 'y'],
  ['b', 'i', 'p', 'l', 'a', 'n', 'e'], ['b', 'i', 'r', 't', 'h'], ['b', 'i', 's', 'c', 'u', 'i', 't'],
  ['b', 'i', 't', 'e'], ['b', 'i', 'w', 'e', 'e', 'k', 'l', 'y'], ['b', 'l', 'e', 'n', 'd', 'e', 'r'],
  ['b', 'l', 'i', 'p'], ['b', 'l', 'u', 'n', 't', 'l', 'y'], ['b', 'o', 'a', 't'],
  ['b', 'o', 'b', 's', 'l', 'e', 'd'], ['b', 'o', 'd', 'i', 'e', 's'], ['b', 'o', 'g', 'e', 'y', 's'],
  ['b', 'o', 'i', 'l'], ['b', 'o', 'l', 'd', 'l', 'y'], ['b', 'o', 'm', 'b'], ['b', 'o', 'r', 'd', 'e', 'r'],
  ['b', 'o', 's', 's'], ['b', 'o', 't', 'h'], ['b', 'o', 'u', 'n', 'c', 'e', 'd'], ['b', 'o', 'v', 'i', 'n', 'e'],
  ['b', 'o', 'w', 'l', 'i', 'n', 'g'], ['b', 'o', 'x', 'e', 's'], ['b', 'o', 'y', 'f', 'r', 'i', 'e', 'n', 'd'],
  ['b', 'r', 'o', 'k', 'e', 'n'], ['b', 'r', 'u', 'n', 't'], ['b', 'u', 'b', 'b', 'l', 'e'],
  ['b', 'u', 'c', 'k', 'e', 't', 's'], ['b', 'u', 'd', 'g', 'e', 't'], ['b', 'u', 'f', 'f', 'e', 't'],
  ['b', 'u', 'g', 's'], ['b', 'u', 'i', 'l', 'd', 'i', 'n', 'g'], ['b', 'u', 'l', 'b'],
  ['b', 'u', 'm', 'p', 'e', 'r'], ['b', 'u', 'n', 'c', 'h'], ['b', 'u', 's', 'i', 'n', 'e', 's', 's'],
  ['b', 'u', 't', 't', 'e', 'r'], ['b', 'u', 'y', 'i', 'n', 'g'], ['b', 'u', 'z', 'z', 'e', 'r'],
  ['b', 'y', 'g', 'o', 'n', 'e', 's'], ['b', 'y', 'l', 'i', 'n', 'e'], ['b', 'y', 'p', 'a', 's', 's'],
  ['c', 'a', 'b', 'i', 'n'], ['c', 'a', 'c', 't', 'u', 's'], ['c', 'a', 'd', 'e', 't', 's'], ['c', 'a', 'f', 'e'],
  ['c', 'a', 'g', 'e'], ['c', 'a', 'j', 'u', 'n'], ['c', 'a', 'k', 'e'], ['c', 'a', 'l', 'a', 'm', 'i', 't', 'y'],
  ['c', 'a', 'm', 'p'], ['c', 'a', 'n', 'd', 'y'], ['c', 'a', 's', 'k', 'e', 't'], ['c', 'a', 't', 'c', 'h'],
  ['c', 'a', 'u', 's', 'e'], ['c', 'a', 'v', 'e', 'r', 'n', 'o', 'u', 's'], ['c', 'e', 'a', 's', 'e'],
  ['c', 'e', 'd', 'a', 'r'], ['c', 'e', 'i', 'l', 'i', 'n', 'g'], ['c', 'e', 'l', 'l'],
  ['c', 'e', 'm', 'e', 'n', 't'], ['c', 'e', 'n', 't'], ['c', 'e', 'r', 't', 'a', 'i', 'n'],
  ['c', 'h', 'l', 'o', 'r', 'i', 'n', 'e'], ['c', 'h', 'r', 'o', 'm', 'e'], ['c', 'i', 'd', 'e', 'r'],
  ['c', 'i', 'g', 'a', 'r'], ['c', 'i', 'n', 'e', 'm', 'a'], ['c', 'i', 'r', 'c', 'l', 'e'],
  ['c', 'i', 's', 't', 'e', 'r', 'n'], ['c', 'i', 't', 'a', 'd', 'e', 'l'], ['c', 'i', 'v', 'i', 'l', 'i', 'a', 'n'],
  ['c', 'l', 'a', 'i', 'm'], ['c', 'l', 'i', 'c', 'k'], ['c', 'l', 'u', 'e'], ['c', 'o', 'a', 'l'],
  ['c', 'o', 'b', 'r', 'a'], ['c', 'o', 'c', 'o', 'a'], ['c', 'o', 'd', 'e'], ['c', 'o', 'e', 'x', 'i', 's', 't'],
  ['c', 'o', 'f', 'f', 'e', 'e'], ['c', 'o', 'g', 's'], ['c', 'o', 'h', 'e', 's', 'i', 'v', 'e'],
  ['c', 'o', 'i', 'l', 's'], ['c', 'o', 'l', 'o', 'n', 'y'], ['c', 'o', 'm', 'b'], ['c', 'o', 'o', 'l'],
  ['c', 'o', 'p', 'y'], ['c', 'o', 'r', 'r', 'o', 'd', 'e'], ['c', 'o', 's', 't', 'u', 'm', 'e'],
  ['c', 'o', 't', 't', 'a', 'g', 'e'], ['c', 'o', 'u', 's', 'i', 'n'], ['c', 'o', 'w', 'l'],
  ['c', 'r', 'i', 'm', 'i', 'n', 'a', 'l'], ['c', 'u', 'b', 'e'], ['c', 'u', 'c', 'u', 'm', 'b', 'e', 'r'],
  ['c', 'u', 'd', 'd', 'l', 'e', 'd'], ['c', 'u', 'f', 'f', 's'], ['c', 'u', 'i', 's', 'i', 'n', 'e'],
  ['c', 'u', 'n', 'n', 'i', 'n', 'g'], ['c', 'u', 'p', 'c', 'a', 'k', 'e'], ['c', 'u', 's', 't', 'o', 'm'],
  ['c', 'y', 'c', 'l', 'i', 'n', 'g'], ['c', 'y', 'l', 'i', 'n', 'd', 'e', 'r'], ['c', 'y', 'n', 'i', 'c', 'a', 'l'],
  ['d', 'a', 'b', 'b', 'i', 'n', 'g'], ['d', 'a', 'd', 's'], ['d', 'a', 'f', 't'], ['d', 'a', 'g', 'g', 'e', 'r'],
  ['d', 'a', 'i', 'l', 'y'], ['d', 'a', 'm', 'p'], ['d', 'a', 'n', 'g', 'e', 'r', 'o', 'u', 's'],
  ['d', 'a', 'p', 'p', 'e', 'r'], ['d', 'a', 'r', 't', 'e', 'd'], ['d', 'a', 's', 'h'],
  ['d', 'a', 't', 'i', 'n', 'g'], ['d', 'a', 'u', 'n', 't', 'l', 'e', 's', 's'], ['d', 'a', 'w', 'n'],
  ['d', 'a', 'y', 't', 'i', 'm', 'e'], ['d', 'a', 'z', 'e', 'd'], ['d', 'e', 'b', 'u', 't'],
  ['d', 'e', 'c', 'a', 'y'], ['d', 'e', 'd', 'i', 'c', 'a', 't', 'e', 'd'], ['d', 'e', 'e', 'p', 'e', 's', 't'],
  ['d', 'e', 'f', 't', 'l', 'y'], ['d', 'e', 'g', 'r', 'e', 'e', 's'], ['d', 'e', 'h', 'y', 'd', 'r', 'a', 't', 'e'],
  ['d', 'e', 'i', 't', 'y'], ['d', 'e', 'j', 'e', 'c', 't', 'e', 'd'], ['d', 'e', 'l', 'a', 'y', 'e', 'd'],
  ['d', 'e', 'm', 'o', 'n', 's', 't', 'r', 'a', 't', 'e'], ['d', 'e', 'n', 't', 'e', 'd'],
  ['d', 'e', 'o', 'd', 'o', 'r', 'a', 'n', 't'], ['d', 'e', 'p', 't', 'h'], ['d', 'e', 's', 'k'],
  ['d', 'e', 'v', 'o', 'i', 'd'], ['d', 'e', 'w', 'd', 'r', 'o', 'p'], ['d', 'e', 'x', 't', 'e', 'r', 'i', 't', 'y'],
  ['d', 'i', 'a', 'l', 'e', 'c', 't'], ['d', 'i', 'c', 'e'], ['d', 'i', 'e', 't'],
  ['d', 'i', 'f', 'f', 'e', 'r', 'e', 'n', 't'], ['d', 'i', 'g', 'i', 't'], ['d', 'i', 'l', 'u', 't', 'e'],
  ['d', 'i', 'm', 'e'], ['d', 'i', 'n', 'n', 'e', 'r'], ['d', 'i', 'o', 'd', 'e'],
  ['d', 'i', 'p', 'l', 'o', 'm', 'a', 't'], ['d', 'i', 'r', 'e', 'c', 't', 'e', 'd'],
  ['d', 'i', 's', 't', 'a', 'n', 'c', 'e'], ['d', 'i', 't', 'c', 'h'], ['d', 'i', 'v', 'e', 'r', 's'],
  ['d', 'i', 'z', 'z', 'y'], ['d', 'o', 'c', 't', 'o', 'r'], ['d', 'o', 'd', 'g', 'e'], ['d', 'o', 'e', 's'],
  ['d', 'o', 'g', 's'], ['d', 'o', 'i', 'n', 'g'], ['d', 'o', 'l', 'p', 'h', 'i', 'n'],
  ['d', 'o', 'm', 'e', 's', 't', 'i', 'c'], ['d', 'o', 'n', 'u', 't', 's'], ['d', 'o', 'o', 'r', 'w', 'a', 'y'],
  ['d', 'o', 'r', 'm', 'a', 'n', 't'], ['d', 'o', 's', 'a', 'g', 'e'], ['d', 'o', 't', 't', 'e', 'd'],
  ['d', 'o', 'u', 'b', 'l', 'e'], ['d', 'o', 'v', 'e'], ['d', 'o', 'w', 'n'], ['d', 'o', 'z', 'e', 'n'],
  ['d', 'r', 'e', 'a', 'm', 's'], ['d', 'r', 'i', 'n', 'k', 's'], ['d', 'r', 'o', 'w', 'n', 'i', 'n', 'g'],
  ['d', 'r', 'u', 'n', 'k'], ['d', 'r', 'y', 'i', 'n', 'g'], ['d', 'u', 'a', 'l'], ['d', 'u', 'b', 'b', 'e', 'd'],
  ['d', 'u', 'c', 'k', 'l', 'i', 'n', 'g'], ['d', 'u', 'd', 'e'], ['d', 'u', 'e', 't', 's'], ['d', 'u', 'k', 'e'],
  ['d', 'u', 'l', 'l', 'n', 'e', 's', 's'], ['d', 'u', 'm', 'm', 'y'], ['d', 'u', 'n', 'e', 's'],
  ['d', 'u', 'p', 'l', 'e', 'x'], ['d', 'u', 'r', 'a', 't', 'i', 'o', 'n'], ['d', 'u', 's', 't', 'e', 'd'],
  ['d', 'u', 't', 'i', 'e', 's'], ['d', 'w', 'a', 'r', 'f'], ['d', 'w', 'e', 'l', 't'],
  ['d', 'w', 'i', 'n', 'd', 'l', 'i', 'n', 'g'], ['d', 'y', 'i', 'n', 'g'], ['d', 'y', 'n', 'a', 'm', 'i', 't', 'e'],
  ['d', 'y', 's', 'l', 'e', 'x', 'i', 'c'], ['e', 'a', 'c', 'h'], ['e', 'a', 'g', 'l', 'e'],
  ['e', 'a', 'r', 't', 'h'], ['e', 'a', 's', 'y'], ['e', 'a', 't', 'i', 'n', 'g'],
  ['e', 'a', 'v', 'e', 's', 'd', 'r', 'o', 'p'], ['e', 'c', 'c', 'e', 'n', 't', 'r', 'i', 'c'], ['e', 'c', 'h', 'o'],
  ['e', 'c', 'l', 'i', 'p', 's', 'e'], ['e', 'c', 'o', 'n', 'o', 'm', 'i', 'c', 's'],
  ['e', 'c', 's', 't', 'a', 't', 'i', 'c'], ['e', 'd', 'e', 'n'], ['e', 'd', 'g', 'y'],
  ['e', 'd', 'i', 't', 'e', 'd'], ['e', 'd', 'u', 'c', 'a', 't', 'e', 'd'], ['e', 'e', 'l', 's'],
  ['e', 'f', 'f', 'i', 'c', 'i', 'e', 'n', 't'], ['e', 'g', 'g', 's'], ['e', 'g', 'o', 't', 'i', 's', 't', 'i', 'c'],
  ['e', 'i', 'g', 'h', 't'], ['e', 'i', 't', 'h', 'e', 'r'], ['e', 'j', 'e', 'c', 't'],
  ['e', 'l', 'a', 'p', 's', 'e'], ['e', 'l', 'b', 'o', 'w'], ['e', 'l', 'd', 'e', 's', 't'],
  ['e', 'l', 'e', 'v', 'e', 'n'], ['e', 'l', 'i', 't', 'e'], ['e', 'l', 'o', 'p', 'e'], ['e', 'l', 's', 'e'],
  ['e', 'l', 'u', 'd', 'e', 'd'], ['e', 'm', 'a', 'i', 'l', 's'], ['e', 'm', 'b', 'e', 'r'],
  ['e', 'm', 'e', 'r', 'g', 'e'], ['e', 'm', 'i', 't'], ['e', 'm', 'o', 't', 'i', 'o', 'n'],
  ['e', 'm', 'p', 't', 'y'], ['e', 'm', 'u', 'l', 'a', 't', 'e'], ['e', 'n', 'e', 'r', 'g', 'y'],
  ['e', 'n', 'f', 'o', 'r', 'c', 'e'], ['e', 'n', 'h', 'a', 'n', 'c', 'e', 'd'], ['e', 'n', 'i', 'g', 'm', 'a'],
  ['e', 'n', 'j', 'o', 'y'], ['e', 'n', 'l', 'i', 's', 't'], ['e', 'n', 'm', 'i', 't', 'y'],
  ['e', 'n', 'o', 'u', 'g', 'h'], ['e', 'n', 'r', 'a', 'g', 'e', 'd'], ['e', 'n', 's', 'i', 'g', 'n'],
  ['e', 'n', 't', 'r', 'a', 'n', 'c', 'e'], ['e', 'n', 'v', 'y'], ['e', 'p', 'o', 'x', 'y'],
  ['e', 'q', 'u', 'i', 'p'], ['e', 'r', 'a', 's', 'e'], ['e', 'r', 'e', 'c', 't', 'e', 'd'],
  ['e', 'r', 'o', 's', 'i', 'o', 'n'], ['e', 'r', 'r', 'o', 'r'], ['e', 's', 'k', 'i', 'm', 'o', 's'],
  ['e', 's', 'p', 'i', 'o', 'n', 'a', 'g', 'e'], ['e', 's', 's', 'e', 'n', 't', 'i', 'a', 'l'],
  ['e', 's', 't', 'a', 't', 'e'], ['e', 't', 'c', 'h', 'e', 'd'], ['e', 't', 'e', 'r', 'n', 'a', 'l'],
  ['e', 't', 'h', 'i', 'c', 's'], ['e', 't', 'i', 'q', 'u', 'e', 't', 't', 'e'],
  ['e', 'v', 'a', 'l', 'u', 'a', 't', 'e'], ['e', 'v', 'e', 'n', 'i', 'n', 'g', 's'],
  ['e', 'v', 'i', 'c', 't', 'e', 'd'], ['e', 'v', 'o', 'l', 'v', 'e', 'd'], ['e', 'x', 'a', 'm', 'i', 'n', 'e'],
  ['e', 'x', 'c', 'e', 's', 's'], ['e', 'x', 'h', 'a', 'l', 'e'], ['e', 'x', 'i', 't'],
  ['e', 'x', 'o', 't', 'i', 'c'], ['e', 'x', 'q', 'u', 'i', 's', 'i', 't', 'e'], ['e', 'x', 't', 'r', 'a'],
  ['e', 'x', 'u', 'l', 't'], ['f', 'a', 'b', 'r', 'i', 'c', 's'], ['f', 'a', 'c', 't', 'u', 'a', 'l'],
  ['f', 'a', 'd', 'i', 'n', 'g'], ['f', 'a', 'i', 'n', 't', 'e', 'd'], ['f', 'a', 'k', 'e', 'd'],
  ['f', 'a', 'l', 'l'], ['f', 'a', 'm', 'i', 'l', 'y'], ['f', 'a', 'n', 'c', 'y'],
  ['f', 'a', 'r', 'm', 'i', 'n', 'g'], ['f', 'a', 't', 'a', 'l'], ['f', 'a', 'u', 'l', 't', 'y'],
  ['f', 'a', 'w', 'n', 's'], ['f', 'a', 'x', 'e', 'd'], ['f', 'a', 'z', 'e', 'd'], ['f', 'e', 'a', 's', 't'],
  ['f', 'e', 'b', 'r', 'u', 'a', 'r', 'y'], ['f', 'e', 'd', 'e', 'r', 'a', 'l'], ['f', 'e', 'e', 'l'],
  ['f', 'e', 'l', 'i', 'n', 'e'], ['f', 'e', 'm', 'a', 'l', 'e', 's'], ['f', 'e', 'n', 'c', 'e', 's'],
  ['f', 'e', 'r', 'r', 'y'], ['f', 'e', 's', 't', 'i', 'v', 'a', 'l'], ['f', 'e', 't', 'c', 'h', 'e', 's'],
  ['f', 'e', 'v', 'e', 'r'], ['f', 'e', 'w', 'e', 's', 't'], ['f', 'i', 'a', 't'], ['f', 'i', 'b', 'u', 'l', 'a'],
  ['f', 'i', 'c', 't', 'i', 'o', 'n', 'a', 'l'], ['f', 'i', 'd', 'g', 'e', 't'], ['f', 'i', 'e', 'r', 'c', 'e'],
  ['f', 'i', 'f', 't', 'e', 'e', 'n'], ['f', 'i', 'g', 'h', 't'], ['f', 'i', 'l', 'm', 's'], ['f', 'i', 'r', 'm'],
  ['f', 'i', 's', 'h', 'i', 'n', 'g'], ['f', 'i', 't', 't', 'i', 'n', 'g'], ['f', 'i', 'v', 'e'],
  ['f', 'i', 'x', 'a', 't', 'e'], ['f', 'i', 'z', 'z', 'l', 'e'], ['f', 'l', 'e', 'e', 't'],
  ['f', 'l', 'i', 'p', 'p', 'a', 'n', 't'], ['f', 'l', 'y', 'i', 'n', 'g'], ['f', 'o', 'a', 'm', 'y'],
  ['f', 'o', 'c', 'u', 's'], ['f', 'o', 'e', 's'], ['f', 'o', 'g', 'g', 'y'], ['f', 'o', 'i', 'l', 'e', 'd'],
  ['f', 'o', 'l', 'd', 'i', 'n', 'g'], ['f', 'o', 'n', 't', 's'], ['f', 'o', 'o', 'l', 'i', 's', 'h'],
  ['f', 'o', 's', 's', 'i', 'l'], ['f', 'o', 'u', 'n', 't', 'a', 'i', 'n'], ['f', 'o', 'w', 'l', 's'],
  ['f', 'o', 'x', 'e', 's'], ['f', 'o', 'y', 'e', 'r'], ['f', 'r', 'a', 'm', 'e', 'd'],
  ['f', 'r', 'i', 'e', 'n', 'd', 'l', 'y'], ['f', 'r', 'o', 'w', 'n'], ['f', 'r', 'u', 'i', 't'],
  ['f', 'r', 'y', 'i', 'n', 'g'], ['f', 'u', 'd', 'g', 'e'], ['f', 'u', 'e', 'l'],
  ['f', 'u', 'g', 'i', 't', 'i', 'v', 'e'], ['f', 'u', 'l', 'l', 'y'], ['f', 'u', 'm', 'i', 'n', 'g'],
  ['f', 'u', 'n', 'g', 'a', 'l'], ['f', 'u', 'r', 'n', 'i', 's', 'h', 'e', 'd'],
  ['f', 'u', 's', 'e', 'l', 'a', 'g', 'e'], ['f', 'u', 't', 'u', 'r', 'e'], ['f', 'u', 'z', 'z', 'y'],
  ['g', 'a', 'b', 'l', 'e', 's'], ['g', 'a', 'd', 'g', 'e', 't'], ['g', 'a', 'g', 's'],
  ['g', 'a', 'i', 'n', 'e', 'd'], ['g', 'a', 'l', 'a', 'x', 'y'], ['g', 'a', 'm', 'b', 'i', 't'],
  ['g', 'a', 'n', 'g'], ['g', 'a', 's', 'p'], ['g', 'a', 't', 'h', 'e', 'r'], ['g', 'a', 'u', 'z', 'e'],
  ['g', 'a', 'v', 'e'], ['g', 'a', 'w', 'k'], ['g', 'a', 'z', 'e'], ['g', 'e', 'a', 'r', 'b', 'o', 'x'],
  ['g', 'e', 'c', 'k', 'o'], ['g', 'e', 'e', 'k'], ['g', 'e', 'l', 's'], ['g', 'e', 'm', 's', 't', 'o', 'n', 'e'],
  ['g', 'e', 'n', 'e', 'r', 'a', 'l'], ['g', 'e', 'o', 'm', 'e', 't', 'r', 'y'], ['g', 'e', 'r', 'm', 's'],
  ['g', 'e', 's', 't', 'u', 'r', 'e'], ['g', 'e', 't', 't', 'i', 'n', 'g'], ['g', 'e', 'y', 's', 'e', 'r'],
  ['g', 'h', 'e', 't', 't', 'o'], ['g', 'h', 'o', 's', 't'], ['g', 'i', 'a', 'n', 't'], ['g', 'i', 'd', 'd', 'y'],
  ['g', 'i', 'f', 't', 's'], ['g', 'i', 'g', 'a', 'n', 't', 'i', 'c'], ['g', 'i', 'l', 'l', 's'],
  ['g', 'i', 'm', 'm', 'i', 'c', 'k'], ['g', 'i', 'n', 'g', 'e', 'r'], ['g', 'i', 'r', 't', 'h'],
  ['g', 'i', 'v', 'i', 'n', 'g'], ['g', 'l', 'a', 's', 's'], ['g', 'l', 'e', 'e', 'f', 'u', 'l'],
  ['g', 'l', 'i', 'd', 'e'], ['g', 'n', 'a', 'w'], ['g', 'n', 'o', 'm', 'e'], ['g', 'o', 'a', 't'],
  ['g', 'o', 'b', 'l', 'e', 't'], ['g', 'o', 'd', 'f', 'a', 't', 'h', 'e', 'r'], ['g', 'o', 'e', 's'],
  ['g', 'o', 'g', 'g', 'l', 'e', 's'], ['g', 'o', 'i', 'n', 'g'], ['g', 'o', 'l', 'd', 'f', 'i', 's', 'h'],
  ['g', 'o', 'n', 'e'], ['g', 'o', 'o', 'd', 'b', 'y', 'e'], ['g', 'o', 'p', 'h', 'e', 'r'],
  ['g', 'o', 'r', 'i', 'l', 'l', 'a'], ['g', 'o', 's', 's', 'i', 'p'], ['g', 'o', 't', 't', 'e', 'n'],
  ['g', 'o', 'u', 'r', 'm', 'e', 't'], ['g', 'o', 'v', 'e', 'r', 'n', 'i', 'n', 'g'], ['g', 'o', 'w', 'n'],
  ['g', 'r', 'e', 'a', 't', 'e', 'r'], ['g', 'r', 'u', 'n', 't'], ['g', 'u', 'a', 'r', 'd', 'e', 'd'],
  ['g', 'u', 'e', 's', 't'], ['g', 'u', 'i', 'd', 'e'], ['g', 'u', 'l', 'p'], ['g', 'u', 'm', 'b', 'a', 'l', 'l'],
  ['g', 'u', 'r', 'u'], ['g', 'u', 's', 't', 's'], ['g', 'u', 't', 't', 'e', 'r'], ['g', 'u', 'y', 's'],
  ['g', 'y', 'm', 'n', 'a', 's', 't'], ['g', 'y', 'p', 's', 'y'], ['g', 'y', 'r', 'a', 't', 'e'],
  ['h', 'a', 'b', 'i', 't', 'a', 't'], ['h', 'a', 'c', 'k', 's', 'a', 'w'], ['h', 'a', 'g', 'g', 'l', 'e', 'd'],
  ['h', 'a', 'i', 'r', 'y'], ['h', 'a', 'm', 'b', 'u', 'r', 'g', 'e', 'r'], ['h', 'a', 'p', 'p', 'e', 'n', 's'],
  ['h', 'a', 's', 'h', 'i', 'n', 'g'], ['h', 'a', 't', 'c', 'h', 'e', 't'], ['h', 'a', 'u', 'n', 't', 'e', 'd'],
  ['h', 'a', 'v', 'i', 'n', 'g'], ['h', 'a', 'w', 'k'], ['h', 'a', 'y', 's', 't', 'a', 'c', 'k'],
  ['h', 'a', 'z', 'a', 'r', 'd'], ['h', 'e', 'c', 't', 'a', 'r', 'e'], ['h', 'e', 'd', 'g', 'e', 'h', 'o', 'g'],
  ['h', 'e', 'e', 'l', 's'], ['h', 'e', 'f', 't', 'y'], ['h', 'e', 'i', 'g', 'h', 't'],
  ['h', 'e', 'm', 'l', 'o', 'c', 'k'], ['h', 'e', 'n', 'c', 'e'], ['h', 'e', 'r', 'o', 'n'],
  ['h', 'e', 's', 'i', 't', 'a', 't', 'e'], ['h', 'e', 'x', 'a', 'g', 'o', 'n'], ['h', 'i', 'c', 'k', 'o', 'r', 'y'],
  ['h', 'i', 'd', 'i', 'n', 'g'], ['h', 'i', 'g', 'h', 'w', 'a', 'y'], ['h', 'i', 'j', 'a', 'c', 'k'],
  ['h', 'i', 'k', 'e', 'r'], ['h', 'i', 'l', 'l', 's'], ['h', 'i', 'm', 's', 'e', 'l', 'f'],
  ['h', 'i', 'n', 'd', 'e', 'r'], ['h', 'i', 'p', 'p', 'o'], ['h', 'i', 'r', 'e'],
  ['h', 'i', 's', 't', 'o', 'r', 'y'], ['h', 'i', 't', 'c', 'h', 'e', 'd'], ['h', 'i', 'v', 'e'],
  ['h', 'o', 'a', 'x'], ['h', 'o', 'b', 'b', 'y'], ['h', 'o', 'c', 'k', 'e', 'y'],
  ['h', 'o', 'i', 's', 't', 'i', 'n', 'g'], ['h', 'o', 'l', 'd'], ['h', 'o', 'n', 'k', 'e', 'd'],
  ['h', 'o', 'o', 'k', 'u', 'p'], ['h', 'o', 'p', 'e'], ['h', 'o', 'r', 'n', 'e', 't'],
  ['h', 'o', 's', 'p', 'i', 't', 'a', 'l'], ['h', 'o', 't', 'e', 'l'], ['h', 'o', 'u', 'n', 'd', 'e', 'd'],
  ['h', 'o', 'v', 'e', 'r'], ['h', 'o', 'w', 'l', 's'], ['h', 'u', 'b', 'c', 'a', 'p', 's'],
  ['h', 'u', 'd', 'd', 'l', 'e'], ['h', 'u', 'g', 'e'], ['h', 'u', 'l', 'l'], ['h', 'u', 'm', 'i', 'd'],
  ['h', 'u', 'n', 't', 'e', 'r'], ['h', 'u', 'r', 'r', 'i', 'e', 'd'], ['h', 'u', 's', 'b', 'a', 'n', 'd'],
  ['h', 'u', 't', 's'], ['h', 'y', 'b', 'r', 'i', 'd'], ['h', 'y', 'd', 'r', 'o', 'g', 'e', 'n'],
  ['h', 'y', 'p', 'e', 'r'], ['i', 'c', 'e', 'b', 'e', 'r', 'g'], ['i', 'c', 'i', 'n', 'g'], ['i', 'c', 'o', 'n'],
  ['i', 'd', 'e', 'n', 't', 'i', 't', 'y'], ['i', 'd', 'i', 'o', 'm'], ['i', 'd', 'l', 'e', 'd'],
  ['i', 'd', 'o', 'l', 's'], ['i', 'g', 'l', 'o', 'o'], ['i', 'g', 'n', 'o', 'r', 'e'],
  ['i', 'g', 'u', 'a', 'n', 'a'], ['i', 'l', 'l', 'n', 'e', 's', 's'], ['i', 'm', 'a', 'g', 'i', 'n', 'e'],
  ['i', 'm', 'b', 'a', 'l', 'a', 'n', 'c', 'e'], ['i', 'm', 'i', 't', 'a', 't', 'e'], ['i', 'm', 'p', 'e', 'l'],
  ['i', 'n', 'a', 'c', 't', 'i', 'v', 'e'], ['i', 'n', 'b', 'o', 'u', 'n', 'd'], ['i', 'n', 'c', 'u', 'r'],
  ['i', 'n', 'd', 'u', 's', 't', 'r', 'i', 'a', 'l'], ['i', 'n', 'e', 'x', 'a', 'c', 't'],
  ['i', 'n', 'f', 'l', 'a', 'm', 'e', 'd'], ['i', 'n', 'g', 'e', 's', 't', 'e', 'd'],
  ['i', 'n', 'i', 't', 'i', 'a', 't', 'e'], ['i', 'n', 'j', 'u', 'r', 'y'], ['i', 'n', 'k', 'l', 'i', 'n', 'g'],
  ['i', 'n', 'l', 'i', 'n', 'e'], ['i', 'n', 'm', 'a', 't', 'e'], ['i', 'n', 'n', 'o', 'c', 'e', 'n', 't'],
  ['i', 'n', 'o', 'r', 'g', 'a', 'n', 'i', 'c'], ['i', 'n', 'p', 'u', 't'], ['i', 'n', 'q', 'u', 'e', 's', 't'],
  ['i', 'n', 'r', 'o', 'a', 'd', 's'], ['i', 'n', 's', 'u', 'l', 't'], ['i', 'n', 't', 'e', 'n', 'd', 'e', 'd'],
  ['i', 'n', 'u', 'n', 'd', 'a', 't', 'e'], ['i', 'n', 'v', 'o', 'k', 'e'], ['i', 'n', 'w', 'a', 'r', 'd', 'l', 'y'],
  ['i', 'o', 'n', 'i', 'c'], ['i', 'r', 'a', 't', 'e'], ['i', 'r', 'i', 's'], ['i', 'r', 'o', 'n', 'y'],
  ['i', 'r', 'r', 'i', 't', 'a', 't', 'e'], ['i', 's', 'l', 'a', 'n', 'd'], ['i', 's', 'o', 'l', 'a', 't', 'e', 'd'],
  ['i', 's', 's', 'u', 'e', 'd'], ['i', 't', 'a', 'l', 'i', 'c', 's'], ['i', 't', 'c', 'h', 'e', 's'],
  ['i', 't', 'e', 'm', 's'], ['i', 't', 'i', 'n', 'e', 'r', 'a', 'r', 'y'], ['i', 't', 's', 'e', 'l', 'f'],
  ['i', 'v', 'o', 'r', 'y'], ['j', 'a', 'b', 'b', 'e', 'd'], ['j', 'a', 'c', 'k', 'e', 't', 's'],
  ['j', 'a', 'd', 'e', 'd'], ['j', 'a', 'g', 'g', 'e', 'd'], ['j', 'a', 'i', 'l', 'e', 'd'],
  ['j', 'a', 'm', 'm', 'i', 'n', 'g'], ['j', 'a', 'n', 'u', 'a', 'r', 'y'], ['j', 'a', 'r', 'g', 'o', 'n'],
  ['j', 'a', 'u', 'n', 't'], ['j', 'a', 'v', 'e', 'l', 'i', 'n'], ['j', 'a', 'w', 's'], ['j', 'a', 'z', 'z'],
  ['j', 'e', 'a', 'n', 's'], ['j', 'e', 'e', 'r', 's'], ['j', 'e', 'l', 'l', 'y', 'f', 'i', 's', 'h'],
  ['j', 'e', 'o', 'p', 'a', 'r', 'd', 'y'], ['j', 'e', 'r', 's', 'e', 'y', 's'], ['j', 'e', 's', 't', 'e', 'r'],
  ['j', 'e', 't', 't', 'i', 'n', 'g'], ['j', 'e', 'w', 'e', 'l', 's'], ['j', 'i', 'g', 's', 'a', 'w'],
  ['j', 'i', 'n', 'g', 'l', 'e'], ['j', 'i', 't', 't', 'e', 'r', 'y'], ['j', 'i', 'v', 'e'], ['j', 'o', 'b', 's'],
  ['j', 'o', 'c', 'k', 'e', 'y'], ['j', 'o', 'g', 'g', 'e', 'r'], ['j', 'o', 'i', 'n', 'i', 'n', 'g'],
  ['j', 'o', 'k', 'i', 'n', 'g'], ['j', 'o', 'l', 't', 'e', 'd'], ['j', 'o', 's', 't', 'l', 'e'],
  ['j', 'o', 'u', 'r', 'n', 'a', 'l'], ['j', 'o', 'y', 'o', 'u', 's'], ['j', 'u', 'b', 'i', 'l', 'e', 'e'],
  ['j', 'u', 'd', 'g', 'e'], ['j', 'u', 'g', 'g', 'l', 'e', 'd'], ['j', 'u', 'i', 'c', 'y'],
  ['j', 'u', 'k', 'e', 'b', 'o', 'x'], ['j', 'u', 'l', 'y'], ['j', 'u', 'm', 'p'], ['j', 'u', 'n', 'k'],
  ['j', 'u', 'r', 'y'], ['j', 'u', 's', 't', 'i', 'c', 'e'], ['j', 'u', 'v', 'e', 'n', 'i', 'l', 'e'],
  ['k', 'a', 'n', 'g', 'a', 'r', 'o', 'o'], ['k', 'a', 'r', 'a', 't', 'e'], ['k', 'e', 'e', 'p'],
  ['k', 'e', 'n', 'n', 'e', 'l'], ['k', 'e', 'p', 't'], ['k', 'e', 'r', 'n', 'e', 'l', 's'],
  ['k', 'e', 't', 't', 'l', 'e'], ['k', 'e', 'y', 'b', 'o', 'a', 'r', 'd'], ['k', 'i', 'c', 'k', 'o', 'f', 'f'],
  ['k', 'i', 'd', 'n', 'e', 'y', 's'], ['k', 'i', 'n', 'g'], ['k', 'i', 'o', 's', 'k'],
  ['k', 'i', 's', 's', 'e', 's'], ['k', 'i', 't', 'c', 'h', 'e', 'n', 's'], ['k', 'i', 'w', 'i'],
  ['k', 'n', 'a', 'p', 's', 'a', 'c', 'k'], ['k', 'n', 'e', 'e'], ['k', 'n', 'i', 'f', 'e'],
  ['k', 'n', 'o', 'w', 'l', 'e', 'd', 'g', 'e'], ['k', 'n', 'u', 'c', 'k', 'l', 'e'], ['k', 'o', 'a', 'l', 'a'],
  ['l', 'a', 'b', 'o', 'r', 'a', 't', 'o', 'r', 'y'], ['l', 'a', 'd', 'd', 'e', 'r'], ['l', 'a', 'g', 'o', 'o', 'n'],
  ['l', 'a', 'i', 'r'], ['l', 'a', 'k', 'e', 's'], ['l', 'a', 'm', 'b'], ['l', 'a', 'n', 'g', 'u', 'a', 'g', 'e'],
  ['l', 'a', 'p', 't', 'o', 'p'], ['l', 'a', 'r', 'g', 'e'], ['l', 'a', 's', 't'], ['l', 'a', 't', 'e', 'r'],
  ['l', 'a', 'u', 'n', 'c', 'h', 'i', 'n', 'g'], ['l', 'a', 'v', 'a'], ['l', 'a', 'w', 's', 'u', 'i', 't'],
  ['l', 'a', 'y', 'o', 'u', 't'], ['l', 'a', 'z', 'y'], ['l', 'e', 'c', 't', 'u', 'r', 'e', 's'],
  ['l', 'e', 'd', 'g', 'e'], ['l', 'e', 'e', 'c', 'h'], ['l', 'e', 'f', 't'], ['l', 'e', 'g', 'i', 'o', 'n'],
  ['l', 'e', 'i', 's', 'u', 'r', 'e'], ['l', 'e', 'm', 'o', 'n'], ['l', 'e', 'n', 'd', 'i', 'n', 'g'],
  ['l', 'e', 'o', 'p', 'a', 'r', 'd'], ['l', 'e', 's', 's', 'o', 'n'], ['l', 'e', 't', 't', 'u', 'c', 'e'],
  ['l', 'e', 'x', 'i', 'c', 'o', 'n'], ['l', 'i', 'a', 'r'], ['l', 'i', 'b', 'r', 'a', 'r', 'y'],
  ['l', 'i', 'c', 'k', 's'], ['l', 'i', 'd', 's'], ['l', 'i', 'e', 'd'],
  ['l', 'i', 'f', 'e', 's', 't', 'y', 'l', 'e'], ['l', 'i', 'g', 'h', 't'], ['l', 'i', 'k', 'e', 'w', 'i', 's', 'e'],
  ['l', 'i', 'l', 'a', 'c'], ['l', 'i', 'm', 'i', 't', 's'], ['l', 'i', 'n', 'e', 'n'], ['l', 'i', 'o', 'n'],
  ['l', 'i', 'p', 's', 't', 'i', 'c', 'k'], ['l', 'i', 'q', 'u', 'i', 'd'], ['l', 'i', 's', 't', 'e', 'n'],
  ['l', 'i', 'v', 'e', 'l', 'y'], ['l', 'o', 'a', 'd', 'e', 'd'], ['l', 'o', 'b', 's', 't', 'e', 'r'],
  ['l', 'o', 'c', 'k', 'e', 'r'], ['l', 'o', 'd', 'g', 'e'], ['l', 'o', 'f', 't', 'y'], ['l', 'o', 'g', 'i', 'c'],
  ['l', 'o', 'i', 'n', 'c', 'l', 'o', 't', 'h'], ['l', 'o', 'n', 'g'], ['l', 'o', 'o', 'k', 'i', 'n', 'g'],
  ['l', 'o', 'p', 'p', 'e', 'd'], ['l', 'o', 'r', 'd', 's', 'h', 'i', 'p'], ['l', 'o', 's', 'i', 'n', 'g'],
  ['l', 'o', 't', 't', 'e', 'r', 'y'], ['l', 'o', 'u', 'd', 'l', 'y'], ['l', 'o', 'v', 'e'],
  ['l', 'o', 'w', 'e', 'r'], ['l', 'o', 'y', 'a', 'l'], ['l', 'u', 'c', 'k', 'y'],
  ['l', 'u', 'g', 'g', 'a', 'g', 'e'], ['l', 'u', 'k', 'e', 'w', 'a', 'r', 'm'], ['l', 'u', 'l', 'l', 'a', 'b', 'y'],
  ['l', 'u', 'm', 'b', 'e', 'r'], ['l', 'u', 'n', 'a', 'r'], ['l', 'u', 'r', 'k'], ['l', 'u', 's', 'h'],
  ['l', 'u', 'x', 'u', 'r', 'y'], ['l', 'y', 'm', 'p', 'h'], ['l', 'y', 'n', 'x'], ['l', 'y', 'r', 'i', 'c', 's'],
  ['m', 'a', 'c', 'r', 'o'], ['m', 'a', 'd', 'n', 'e', 's', 's'], ['m', 'a', 'g', 'i', 'c', 'a', 'l', 'l', 'y'],
  ['m', 'a', 'i', 'l', 'e', 'd'], ['m', 'a', 'j', 'o', 'r'], ['m', 'a', 'k', 'e', 'u', 'p'],
  ['m', 'a', 'l', 'a', 'd', 'y'], ['m', 'a', 'm', 'm', 'a', 'l'], ['m', 'a', 'p', 's'],
  ['m', 'a', 's', 't', 'e', 'r', 'f', 'u', 'l'], ['m', 'a', 't', 'c', 'h'], ['m', 'a', 'u', 'l'],
  ['m', 'a', 'v', 'e', 'r', 'i', 'c', 'k'], ['m', 'a', 'x', 'i', 'm', 'u', 'm'], ['m', 'a', 'y', 'o', 'r'],
  ['m', 'a', 'z', 'e'], ['m', 'e', 'a', 'n', 't'], ['m', 'e', 'c', 'h', 'a', 'n', 'i', 'c'],
  ['m', 'e', 'd', 'i', 'c', 'a', 't', 'e'], ['m', 'e', 'e', 't', 'i', 'n', 'g'],
  ['m', 'e', 'g', 'a', 'b', 'y', 't', 'e'], ['m', 'e', 'l', 't', 'i', 'n', 'g'], ['m', 'e', 'm', 'o', 'i', 'r'],
  ['m', 'e', 'n', 'u'], ['m', 'e', 'r', 'g', 'e', 'r'], ['m', 'e', 's', 'h'], ['m', 'e', 't', 'r', 'o'],
  ['m', 'e', 'w', 's'], ['m', 'i', 'c', 'e'], ['m', 'i', 'd', 's', 't'], ['m', 'i', 'g', 'h', 't', 'y'],
  ['m', 'i', 'm', 'e'], ['m', 'i', 'r', 'r', 'o', 'r'], ['m', 'i', 's', 'e', 'r', 'y'],
  ['m', 'i', 't', 't', 'e', 'n', 's'], ['m', 'i', 'x', 't', 'u', 'r', 'e'], ['m', 'o', 'a', 't'],
  ['m', 'o', 'b', 'i', 'l', 'e'], ['m', 'o', 'c', 'k', 'e', 'd'], ['m', 'o', 'h', 'a', 'w', 'k'],
  ['m', 'o', 'i', 's', 't', 'u', 'r', 'e'], ['m', 'o', 'l', 't', 'e', 'n'], ['m', 'o', 'm', 'e', 'n', 't'],
  ['m', 'o', 'n', 'e', 'y'], ['m', 'o', 'o', 'n'], ['m', 'o', 'p', 's'], ['m', 'o', 'r', 's', 'e', 'l'],
  ['m', 'o', 's', 't', 'l', 'y'], ['m', 'o', 't', 'h', 'e', 'r', 'l', 'y'], ['m', 'o', 'u', 't', 'h'],
  ['m', 'o', 'v', 'e', 'm', 'e', 'n', 't'], ['m', 'o', 'w', 'i', 'n', 'g'], ['m', 'u', 'c', 'h'],
  ['m', 'u', 'd', 'd', 'y'], ['m', 'u', 'f', 'f', 'i', 'n'], ['m', 'u', 'g', 'g', 'e', 'd'],
  ['m', 'u', 'l', 'l', 'e', 't'], ['m', 'u', 'm', 'b', 'l', 'e'], ['m', 'u', 'n', 'd', 'a', 'n', 'e'],
  ['m', 'u', 'p', 'p', 'e', 't'], ['m', 'u', 'r', 'a', 'l'], ['m', 'u', 's', 'i', 'c', 'a', 'l'],
  ['m', 'u', 'z', 'z', 'l', 'e'], ['m', 'y', 'r', 'i', 'a', 'd'], ['m', 'y', 's', 't', 'e', 'r', 'y'],
  ['m', 'y', 't', 'h'], ['n', 'a', 'b', 'b', 'i', 'n', 'g'], ['n', 'a', 'g', 'g', 'e', 'd'], ['n', 'a', 'i', 'l'],
  ['n', 'a', 'm', 'e', 's'], ['n', 'a', 'n', 'n', 'y'], ['n', 'a', 'p', 'k', 'i', 'n'],
  ['n', 'a', 'r', 'r', 'a', 't', 'e'], ['n', 'a', 's', 't', 'y'], ['n', 'a', 't', 'u', 'r', 'a', 'l'],
  ['n', 'a', 'u', 't', 'i', 'c', 'a', 'l'], ['n', 'a', 'v', 'y'], ['n', 'e', 'a', 'r', 'b', 'y'],
  ['n', 'e', 'c', 'k', 'l', 'a', 'c', 'e'], ['n', 'e', 'e', 'd', 'e', 'd'], ['n', 'e', 'g', 'a', 't', 'i', 'v', 'e'],
  ['n', 'e', 'i', 't', 'h', 'e', 'r'], ['n', 'e', 'o', 'n'], ['n', 'e', 'p', 'h', 'e', 'w'],
  ['n', 'e', 'r', 'v', 'e', 's'], ['n', 'e', 's', 't', 'l', 'e'], ['n', 'e', 't', 'w', 'o', 'r', 'k'],
  ['n', 'e', 'u', 't', 'r', 'a', 'l'], ['n', 'e', 'v', 'e', 'r'], ['n', 'e', 'w', 't'], ['n', 'e', 'x', 'u', 's'],
  ['n', 'i', 'b', 's'], ['n', 'i', 'c', 'h', 'e'], ['n', 'i', 'e', 'c', 'e'], ['n', 'i', 'f', 't', 'y'],
  ['n', 'i', 'g', 'h', 't', 'l', 'y'], ['n', 'i', 'm', 'b', 'l', 'y'], ['n', 'i', 'n', 'e', 't', 'e', 'e', 'n'],
  ['n', 'i', 'r', 'v', 'a', 'n', 'a'], ['n', 'i', 't', 'r', 'o', 'g', 'e', 'n'], ['n', 'o', 'b', 'o', 'd', 'y'],
  ['n', 'o', 'c', 't', 'u', 'r', 'n', 'a', 'l'], ['n', 'o', 'd', 'e', 's'], ['n', 'o', 'i', 's', 'e', 's'],
  ['n', 'o', 'm', 'a', 'd'], ['n', 'o', 'o', 'd', 'l', 'e', 's'], ['n', 'o', 'r', 't', 'h', 'e', 'r', 'n'],
  ['n', 'o', 's', 't', 'r', 'i', 'l'], ['n', 'o', 't', 'e', 'd'], ['n', 'o', 'u', 'n', 's'],
  ['n', 'o', 'v', 'e', 'l', 't', 'y'], ['n', 'o', 'w', 'h', 'e', 'r', 'e'], ['n', 'o', 'z', 'z', 'l', 'e'],
  ['n', 'u', 'a', 'n', 'c', 'e'], ['n', 'u', 'c', 'l', 'e', 'u', 's'], ['n', 'u', 'd', 'g', 'e', 'd'],
  ['n', 'u', 'g', 'g', 'e', 't'], ['n', 'u', 'i', 's', 'a', 'n', 'c', 'e'], ['n', 'u', 'l', 'l'],
  ['n', 'u', 'm', 'b', 'e', 'r'], ['n', 'u', 'n', 's'], ['n', 'u', 'r', 's', 'e'],
  ['n', 'u', 't', 's', 'h', 'e', 'l', 'l'], ['n', 'y', 'l', 'o', 'n'], ['o', 'a', 'k', 's'], ['o', 'a', 'r', 's'],
  ['o', 'a', 's', 'i', 's'], ['o', 'a', 't', 'm', 'e', 'a', 'l'], ['o', 'b', 'e', 'd', 'i', 'e', 'n', 't'],
  ['o', 'b', 'j', 'e', 'c', 't'], ['o', 'b', 'l', 'i', 'g', 'e', 'd'], ['o', 'b', 'n', 'o', 'x', 'i', 'o', 'u', 's'],
  ['o', 'b', 's', 'e', 'r', 'v', 'a', 'n', 't'], ['o', 'b', 't', 'a', 'i', 'n', 's'],
  ['o', 'b', 'v', 'i', 'o', 'u', 's'], ['o', 'c', 'c', 'u', 'r'], ['o', 'c', 'e', 'a', 'n'],
  ['o', 'c', 't', 'o', 'b', 'e', 'r'], ['o', 'd', 'd', 's'], ['o', 'd', 'o', 'm', 'e', 't', 'e', 'r'],
  ['o', 'f', 'f', 'e', 'n', 'd'], ['o', 'f', 't', 'e', 'n'], ['o', 'i', 'l', 'f', 'i', 'e', 'l', 'd'],
  ['o', 'i', 'n', 't', 'm', 'e', 'n', 't'], ['o', 'k', 'a', 'y'], ['o', 'l', 'd', 'e', 'r'],
  ['o', 'l', 'i', 'v', 'e'], ['o', 'l', 'y', 'm', 'p', 'i', 'c', 's'], ['o', 'm', 'e', 'g', 'a'],
  ['o', 'm', 'i', 's', 's', 'i', 'o', 'n'], ['o', 'm', 'n', 'i', 'b', 'u', 's'], ['o', 'n', 'b', 'o', 'a', 'r', 'd'],
  ['o', 'n', 'c', 'o', 'm', 'i', 'n', 'g'], ['o', 'n', 'e', 's', 'e', 'l', 'f'], ['o', 'n', 'g', 'o', 'i', 'n', 'g'],
  ['o', 'n', 'i', 'o', 'n'], ['o', 'n', 'l', 'i', 'n', 'e'], ['o', 'n', 's', 'l', 'a', 'u', 'g', 'h', 't'],
  ['o', 'n', 't', 'o'], ['o', 'n', 'w', 'a', 'r', 'd'], ['o', 'o', 'z', 'e', 'd'],
  ['o', 'p', 'a', 'c', 'i', 't', 'y'], ['o', 'p', 'e', 'n', 'e', 'd'], ['o', 'p', 'p', 'o', 's', 'i', 't', 'e'],
  ['o', 'p', 't', 'i', 'c', 'a', 'l'], ['o', 'p', 'u', 's'], ['o', 'r', 'a', 'n', 'g', 'e'],
  ['o', 'r', 'b', 'i', 't'], ['o', 'r', 'c', 'h', 'i', 'd'], ['o', 'r', 'd', 'e', 'r', 's'],
  ['o', 'r', 'g', 'a', 'n', 's'], ['o', 'r', 'i', 'g', 'i', 'n'], ['o', 'r', 'n', 'a', 'm', 'e', 'n', 't'],
  ['o', 'r', 'p', 'h', 'a', 'n', 's'], ['o', 's', 'c', 'a', 'r'], ['o', 's', 't', 'r', 'i', 'c', 'h'],
  ['o', 't', 'h', 'e', 'r', 'w', 'i', 's', 'e'], ['o', 't', 't', 'e', 'r'], ['o', 'u', 'c', 'h'],
  ['o', 'u', 'g', 'h', 't'], ['o', 'u', 'n', 'c', 'e'], ['o', 'u', 'r', 's', 'e', 'l', 'v', 'e', 's'],
  ['o', 'u', 's', 't'], ['o', 'u', 't', 'b', 'r', 'e', 'a', 'k'], ['o', 'v', 'a', 'l'], ['o', 'v', 'e', 'n'],
  ['o', 'w', 'e', 'd'], ['o', 'w', 'l', 's'], ['o', 'w', 'n', 'e', 'r'], ['o', 'x', 'i', 'd', 'a', 'n', 't'],
  ['o', 'x', 'y', 'g', 'e', 'n'], ['o', 'y', 's', 't', 'e', 'r'], ['o', 'z', 'o', 'n', 'e'], ['p', 'a', 'c', 't'],
  ['p', 'a', 'd', 'd', 'l', 'e', 's'], ['p', 'a', 'g', 'e', 'r'], ['p', 'a', 'i', 'r', 'i', 'n', 'g'],
  ['p', 'a', 'l', 'a', 'c', 'e'], ['p', 'a', 'm', 'p', 'h', 'l', 'e', 't'], ['p', 'a', 'n', 'c', 'a', 'k', 'e', 's'],
  ['p', 'a', 'p', 'e', 'r'], ['p', 'a', 'r', 'a', 'd', 'i', 's', 'e'], ['p', 'a', 's', 't', 'r', 'y'],
  ['p', 'a', 't', 'i', 'o'], ['p', 'a', 'u', 's', 'e'], ['p', 'a', 'v', 'e', 'm', 'e', 'n', 't', 's'],
  ['p', 'a', 'w', 'n', 's', 'h', 'o', 'p'], ['p', 'a', 'y', 'm', 'e', 'n', 't'], ['p', 'e', 'a', 'c', 'h', 'e', 's'],
  ['p', 'e', 'b', 'b', 'l', 'e', 's'], ['p', 'e', 'c', 'u', 'l', 'i', 'a', 'r'],
  ['p', 'e', 'd', 'a', 'n', 't', 'i', 'c'], ['p', 'e', 'e', 'l', 'e', 'd'], ['p', 'e', 'g', 's'],
  ['p', 'e', 'l', 'i', 'c', 'a', 'n'], ['p', 'e', 'n', 'c', 'i', 'l'], ['p', 'e', 'o', 'p', 'l', 'e'],
  ['p', 'e', 'p', 'p', 'e', 'r'], ['p', 'e', 'r', 'f', 'e', 'c', 't'], ['p', 'e', 's', 't', 's'],
  ['p', 'e', 't', 'a', 'l', 's'], ['p', 'h', 'a', 's', 'e'], ['p', 'h', 'e', 'a', 's', 'a', 'n', 't', 's'],
  ['p', 'h', 'o', 'n', 'e'], ['p', 'h', 'r', 'a', 's', 'e', 's'], ['p', 'h', 'y', 's', 'i', 'c', 's'],
  ['p', 'i', 'a', 'n', 'o'], ['p', 'i', 'c', 'k', 'e', 'd'], ['p', 'i', 'e', 'r', 'c', 'e'],
  ['p', 'i', 'g', 'm', 'e', 'n', 't'], ['p', 'i', 'l', 'o', 't', 'e', 'd'], ['p', 'i', 'm', 'p', 'l', 'e'],
  ['p', 'i', 'n', 'c', 'h', 'e', 'd'], ['p', 'i', 'o', 'n', 'e', 'e', 'r'], ['p', 'i', 'p', 'e', 'l', 'i', 'n', 'e'],
  ['p', 'i', 'r', 'a', 't', 'e'], ['p', 'i', 's', 't', 'o', 'n', 's'], ['p', 'i', 't', 'c', 'h', 'e', 'd'],
  ['p', 'i', 'v', 'o', 't'], ['p', 'i', 'x', 'e', 'l', 's'], ['p', 'i', 'z', 'z', 'a'],
  ['p', 'l', 'a', 'y', 'f', 'u', 'l'], ['p', 'l', 'e', 'd', 'g', 'e'], ['p', 'l', 'i', 'e', 'r', 's'],
  ['p', 'l', 'o', 't', 't', 'i', 'n', 'g'], ['p', 'l', 'u', 's'], ['p', 'l', 'y', 'w', 'o', 'o', 'd'],
  ['p', 'o', 'a', 'c', 'h', 'i', 'n', 'g'], ['p', 'o', 'c', 'k', 'e', 't', 's'], ['p', 'o', 'd', 'c', 'a', 's', 't'],
  ['p', 'o', 'e', 't', 'r', 'y'], ['p', 'o', 'i', 'n', 't'], ['p', 'o', 'k', 'e', 'r'], ['p', 'o', 'l', 'a', 'r'],
  ['p', 'o', 'n', 'i', 'e', 's'], ['p', 'o', 'o', 'l'], ['p', 'o', 'p', 'u', 'l', 'a', 'r'],
  ['p', 'o', 'r', 't', 'e', 'n', 't', 's'], ['p', 'o', 's', 's', 'i', 'b', 'l', 'e'], ['p', 'o', 't', 'a', 't', 'o'],
  ['p', 'o', 'u', 'c', 'h'], ['p', 'o', 'v', 'e', 'r', 't', 'y'], ['p', 'o', 'w', 'd', 'e', 'r'],
  ['p', 'r', 'a', 'm'], ['p', 'r', 'e', 's', 'e', 'n', 't'], ['p', 'r', 'i', 'd', 'e'],
  ['p', 'r', 'o', 'b', 'l', 'e', 'm', 's'], ['p', 'r', 'u', 'n', 'e', 'd'], ['p', 'r', 'y', 'i', 'n', 'g'],
  ['p', 's', 'y', 'c', 'h', 'i', 'c'], ['p', 'u', 'b', 'l', 'i', 'c'], ['p', 'u', 'c', 'k'],
  ['p', 'u', 'd', 'd', 'l', 'e'], ['p', 'u', 'f', 'f', 'i', 'n'], ['p', 'u', 'l', 'p'],
  ['p', 'u', 'm', 'p', 'k', 'i', 'n', 's'], ['p', 'u', 'n', 'c', 'h'], ['p', 'u', 'p', 'p', 'y'],
  ['p', 'u', 'r', 'g', 'e', 'd'], ['p', 'u', 's', 'h'], ['p', 'u', 't', 't', 'y'],
  ['p', 'u', 'z', 'z', 'l', 'e', 'd'], ['p', 'y', 'l', 'o', 'n', 's'], ['p', 'y', 'r', 'a', 'm', 'i', 'd'],
  ['p', 'y', 't', 'h', 'o', 'n'], ['q', 'u', 'e', 'e', 'n'], ['q', 'u', 'i', 'c', 'k'], ['q', 'u', 'o', 't', 'e'],
  ['r', 'a', 'b', 'b', 'i', 't', 's'], ['r', 'a', 'c', 'e', 't', 'r', 'a', 'c', 'k'], ['r', 'a', 'd', 'a', 'r'],
  ['r', 'a', 'f', 't', 's'], ['r', 'a', 'g', 'e'], ['r', 'a', 'i', 'l', 'w', 'a', 'y'],
  ['r', 'a', 'k', 'i', 'n', 'g'], ['r', 'a', 'l', 'l', 'y'], ['r', 'a', 'm', 'p', 'e', 'd'],
  ['r', 'a', 'n', 'd', 'o', 'm', 'l', 'y'], ['r', 'a', 'p', 'i', 'd'], ['r', 'a', 'r', 'e', 's', 't'],
  ['r', 'a', 's', 'h'], ['r', 'a', 't', 'e', 'd'], ['r', 'a', 'v', 'i', 'n', 'e'], ['r', 'a', 'y', 's'],
  ['r', 'a', 'z', 'o', 'r'], ['r', 'e', 'a', 'c', 't'], ['r', 'e', 'b', 'e', 'l'], ['r', 'e', 'c', 'i', 'p', 'e'],
  ['r', 'e', 'd', 'u', 'c', 'e'], ['r', 'e', 'e', 'f'], ['r', 'e', 'f', 'e', 'r'],
  ['r', 'e', 'g', 'u', 'l', 'a', 'r'], ['r', 'e', 'h', 'e', 'a', 't'], ['r', 'e', 'i', 'n', 'v', 'e', 's', 't'],
  ['r', 'e', 'j', 'o', 'i', 'c', 'e', 's'], ['r', 'e', 'k', 'i', 'n', 'd', 'l', 'e'], ['r', 'e', 'l', 'i', 'c'],
  ['r', 'e', 'm', 'e', 'd', 'y'], ['r', 'e', 'n', 't', 'i', 'n', 'g'], ['r', 'e', 'o', 'r', 'd', 'e', 'r'],
  ['r', 'e', 'p', 'e', 'n', 't'], ['r', 'e', 'q', 'u', 'e', 's', 't'], ['r', 'e', 'r', 'u', 'n', 's'],
  ['r', 'e', 's', 't'], ['r', 'e', 't', 'u', 'r', 'n'], ['r', 'e', 'u', 'n', 'i', 'o', 'n'],
  ['r', 'e', 'v', 'a', 'm', 'p'], ['r', 'e', 'w', 'i', 'n', 'd'], ['r', 'h', 'i', 'n', 'o'],
  ['r', 'h', 'y', 't', 'h', 'm'], ['r', 'i', 'b', 'b', 'o', 'n'], ['r', 'i', 'c', 'h', 'l', 'y'],
  ['r', 'i', 'd', 'g', 'e', 's'], ['r', 'i', 'f', 't'], ['r', 'i', 'g', 'i', 'd'], ['r', 'i', 'm', 's'],
  ['r', 'i', 'n', 'g', 'i', 'n', 'g'], ['r', 'i', 'o', 't', 's'], ['r', 'i', 'p', 'p', 'e', 'd'],
  ['r', 'i', 's', 'i', 'n', 'g'], ['r', 'i', 't', 'u', 'a', 'l'], ['r', 'i', 'v', 'e', 'r'],
  ['r', 'o', 'a', 'r', 'e', 'd'], ['r', 'o', 'b', 'o', 't'], ['r', 'o', 'c', 'k', 'e', 't', 's'],
  ['r', 'o', 'd', 'e', 'n', 't'], ['r', 'o', 'g', 'u', 'e'], ['r', 'o', 'l', 'e', 's'],
  ['r', 'o', 'm', 'a', 'n', 'c', 'e'], ['r', 'o', 'o', 'm', 'y'], ['r', 'o', 'p', 'e', 'd'],
  ['r', 'o', 's', 't', 'e', 'r'], ['r', 'o', 't', 'a', 't', 'e'], ['r', 'o', 'u', 'n', 'd', 'e', 'd'],
  ['r', 'o', 'v', 'e', 'r'], ['r', 'o', 'w', 'b', 'o', 'a', 't'], ['r', 'o', 'y', 'a', 'l'], ['r', 'u', 'b', 'y'],
  ['r', 'u', 'd', 'e', 'l', 'y'], ['r', 'u', 'f', 'f', 'l', 'e', 'd'], ['r', 'u', 'g', 'g', 'e', 'd'],
  ['r', 'u', 'i', 'n', 'e', 'd'], ['r', 'u', 'l', 'i', 'n', 'g'], ['r', 'u', 'm', 'b', 'l', 'e'],
  ['r', 'u', 'n', 'w', 'a', 'y'], ['r', 'u', 'r', 'a', 'l'], ['r', 'u', 's', 't', 'l', 'e', 'd'],
  ['r', 'u', 't', 'h', 'l', 'e', 's', 's'], ['s', 'a', 'b', 'o', 't', 'a', 'g', 'e'], ['s', 'a', 'c', 'k'],
  ['s', 'a', 'd', 'n', 'e', 's', 's'], ['s', 'a', 'f', 'e', 't', 'y'], ['s', 'a', 'g', 'a'],
  ['s', 'a', 'i', 'l', 'o', 'r'], ['s', 'a', 'k', 'e'], ['s', 'a', 'l', 'a', 'd', 's'],
  ['s', 'a', 'm', 'p', 'l', 'e'], ['s', 'a', 'n', 'i', 't', 'y'], ['s', 'a', 'p', 'l', 'i', 'n', 'g'],
  ['s', 'a', 'r', 'c', 'a', 's', 'm'], ['s', 'a', 's', 'h'], ['s', 'a', 't', 'i', 'n'],
  ['s', 'a', 'u', 'c', 'e', 'p', 'a', 'n'], ['s', 'a', 'v', 'e', 'd'], ['s', 'a', 'w', 'm', 'i', 'l', 'l'],
  ['s', 'a', 'x', 'o', 'p', 'h', 'o', 'n', 'e'], ['s', 'a', 'y', 'i', 'n', 'g', 's'],
  ['s', 'c', 'a', 'm', 'p', 'e', 'r'], ['s', 'c', 'e', 'n', 'i', 'c'], ['s', 'c', 'h', 'o', 'o', 'l'],
  ['s', 'c', 'i', 'e', 'n', 'c', 'e'], ['s', 'c', 'o', 'o', 'p'], ['s', 'c', 'r', 'u', 'b'],
  ['s', 'c', 'u', 'b', 'a'], ['s', 'e', 'a', 's', 'o', 'n', 's'], ['s', 'e', 'c', 'o', 'n', 'd'],
  ['s', 'e', 'd', 'a', 'n'], ['s', 'e', 'e', 'd', 'e', 'd'], ['s', 'e', 'g', 'm', 'e', 'n', 't', 's'],
  ['s', 'e', 'i', 's', 'm', 'i', 'c'], ['s', 'e', 'l', 'f', 'i', 's', 'h'],
  ['s', 'e', 'm', 'i', 'f', 'i', 'n', 'a', 'l'], ['s', 'e', 'n', 's', 'i', 'b', 'l', 'e'],
  ['s', 'e', 'p', 't', 'e', 'm', 'b', 'e', 'r'], ['s', 'e', 'q', 'u', 'e', 'n', 'c', 'e'],
  ['s', 'e', 'r', 'v', 'i', 'n', 'g'], ['s', 'e', 's', 's', 'i', 'o', 'n'], ['s', 'e', 't', 'u', 'p'],
  ['s', 'e', 'v', 'e', 'n', 't', 'h'], ['s', 'e', 'w', 'a', 'g', 'e'], ['s', 'h', 'a', 'c', 'k', 'l', 'e', 's'],
  ['s', 'h', 'e', 'l', 't', 'e', 'r'], ['s', 'h', 'i', 'p', 'p', 'e', 'd'], ['s', 'h', 'o', 'c', 'k', 'i', 'n', 'g'],
  ['s', 'h', 'r', 'u', 'g', 'g', 'e', 'd'], ['s', 'h', 'u', 'f', 'f', 'l', 'e', 'd'],
  ['s', 'h', 'y', 'n', 'e', 's', 's'], ['s', 'i', 'b', 'l', 'i', 'n', 'g', 's'],
  ['s', 'i', 'c', 'k', 'n', 'e', 's', 's'], ['s', 'i', 'd', 'e', 'k', 'i', 'c', 'k'], ['s', 'i', 'e', 'v', 'e'],
  ['s', 'i', 'f', 't', 'i', 'n', 'g'], ['s', 'i', 'g', 'h', 't', 'i', 'n', 'g'], ['s', 'i', 'l', 'k'],
  ['s', 'i', 'm', 'p', 'l', 'e', 's', 't'], ['s', 'i', 'n', 'c', 'e', 'r', 'e', 'l', 'y'],
  ['s', 'i', 'p', 'p', 'e', 'd'], ['s', 'i', 'r', 'e', 'n'], ['s', 'i', 't', 'u', 'a', 't', 'e', 'd'],
  ['s', 'i', 'x', 't', 'e', 'e', 'n'], ['s', 'i', 'z', 'e', 's'], ['s', 'k', 'a', 't', 'e', 'r'],
  ['s', 'k', 'e', 'w'], ['s', 'k', 'i', 'r', 't', 'i', 'n', 'g'], ['s', 'k', 'u', 'l', 'l', 's'],
  ['s', 'k', 'y', 'd', 'i', 'v', 'e'], ['s', 'l', 'a', 'c', 'k', 'e', 'n', 's'],
  ['s', 'l', 'e', 'e', 'p', 'l', 'e', 's', 's'], ['s', 'l', 'i', 'd'], ['s', 'l', 'o', 'w', 'e', 'r'],
  ['s', 'l', 'u', 'g'], ['s', 'm', 'a', 's', 'h'], ['s', 'm', 'e', 'l', 't', 'i', 'n', 'g'],
  ['s', 'm', 'i', 'd', 'g', 'e', 'n'], ['s', 'm', 'o', 'g'], ['s', 'm', 'u', 'g', 'g', 'l', 'e', 'd'],
  ['s', 'n', 'a', 'k', 'e'], ['s', 'n', 'e', 'e', 'z', 'e'], ['s', 'n', 'i', 'f', 'f'], ['s', 'n', 'o', 'u', 't'],
  ['s', 'n', 'u', 'g'], ['s', 'o', 'a', 'p', 'y'], ['s', 'o', 'b', 'e', 'r'], ['s', 'o', 'c', 'c', 'e', 'r'],
  ['s', 'o', 'd', 'a'], ['s', 'o', 'f', 't', 'w', 'a', 'r', 'e'], ['s', 'o', 'g', 'g', 'y'], ['s', 'o', 'i', 'l'],
  ['s', 'o', 'l', 'v', 'e', 'd'], ['s', 'o', 'm', 'e', 'w', 'h', 'e', 'r', 'e'], ['s', 'o', 'n', 'i', 'c'],
  ['s', 'o', 'o', 't', 'h', 'e'], ['s', 'o', 'p', 'r', 'a', 'n', 'o'], ['s', 'o', 'r', 'r', 'y'],
  ['s', 'o', 'u', 't', 'h', 'e', 'r', 'n'], ['s', 'o', 'v', 'e', 'r', 'e', 'i', 'g', 'n'], ['s', 'o', 'w', 'e', 'd'],
  ['s', 'o', 'y', 'a'], ['s', 'p', 'a', 'c', 'e'], ['s', 'p', 'e', 'e', 'd', 'y'], ['s', 'p', 'h', 'e', 'r', 'e'],
  ['s', 'p', 'i', 'd', 'e', 'r', 's'], ['s', 'p', 'l', 'e', 'n', 'd', 'i', 'd'], ['s', 'p', 'o', 'u', 't'],
  ['s', 'p', 'r', 'i', 'g'], ['s', 'p', 'u', 'd'], ['s', 'p', 'y', 'i', 'n', 'g'], ['s', 'q', 'u', 'a', 'r', 'e'],
  ['s', 't', 'a', 'c', 'k', 'i', 'n', 'g'], ['s', 't', 'e', 'l', 'l', 'a', 'r'], ['s', 't', 'i', 'c', 'k'],
  ['s', 't', 'o', 'c', 'k', 'p', 'i', 'l', 'e'], ['s', 't', 'r', 'a', 'i', 'n', 'e', 'd'],
  ['s', 't', 'u', 'n', 'n', 'i', 'n', 'g'], ['s', 't', 'y', 'l', 'i', 's', 'h', 'l', 'y'],
  ['s', 'u', 'b', 't', 'l', 'y'], ['s', 'u', 'c', 'c', 'e', 'e', 'd'], ['s', 'u', 'd', 'd', 'e', 'n', 'l', 'y'],
  ['s', 'u', 'e', 'd', 'e'], ['s', 'u', 'f', 'f', 'i', 'c', 'e'], ['s', 'u', 'g', 'a', 'r'],
  ['s', 'u', 'i', 't', 'c', 'a', 's', 'e'], ['s', 'u', 'l', 'k', 'i', 'n', 'g'], ['s', 'u', 'm', 'm', 'o', 'n'],
  ['s', 'u', 'n', 'k', 'e', 'n'], ['s', 'u', 'p', 'e', 'r', 'i', 'o', 'r'], ['s', 'u', 'r', 'f', 'e', 'r'],
  ['s', 'u', 's', 'h', 'i'], ['s', 'u', 't', 'u', 'r', 'e'], ['s', 'w', 'a', 'g', 'g', 'e', 'r'],
  ['s', 'w', 'e', 'p', 't'], ['s', 'w', 'i', 'f', 't', 'l', 'y'], ['s', 'w', 'o', 'r', 'd'],
  ['s', 'w', 'u', 'n', 'g'], ['s', 'y', 'l', 'l', 'a', 'b', 'u', 's'], ['s', 'y', 'm', 'p', 't', 'o', 'm', 's'],
  ['s', 'y', 'n', 'd', 'r', 'o', 'm', 'e'], ['s', 'y', 'r', 'i', 'n', 'g', 'e'], ['s', 'y', 's', 't', 'e', 'm'],
  ['t', 'a', 'b', 'o', 'o'], ['t', 'a', 'c', 'i', 't'], ['t', 'a', 'd', 'p', 'o', 'l', 'e', 's'],
  ['t', 'a', 'g', 'g', 'e', 'd'], ['t', 'a', 'i', 'l'], ['t', 'a', 'k', 'e', 'n'], ['t', 'a', 'l', 'e', 'n', 't'],
  ['t', 'a', 'm', 'p', 'e', 'r'], ['t', 'a', 'n', 'k', 's'], ['t', 'a', 'p', 'e', 's', 't', 'r', 'y'],
  ['t', 'a', 'r', 'n', 'i', 's', 'h', 'e', 'd'], ['t', 'a', 's', 'k', 'e', 'd'], ['t', 'a', 't', 't', 'o', 'o'],
  ['t', 'a', 'u', 'n', 't', 's'], ['t', 'a', 'v', 'e', 'r', 'n'], ['t', 'a', 'w', 'n', 'y'], ['t', 'a', 'x', 'i'],
  ['t', 'e', 'a', 'r', 'd', 'r', 'o', 'p'], ['t', 'e', 'c', 'h', 'n', 'i', 'c', 'a', 'l'],
  ['t', 'e', 'd', 'i', 'o', 'u', 's'], ['t', 'e', 'e', 'm', 'i', 'n', 'g'], ['t', 'e', 'l', 'l'],
  ['t', 'e', 'm', 'p', 'l', 'a', 't', 'e'], ['t', 'e', 'n', 'd', 'e', 'r'], ['t', 'e', 'p', 'i', 'd'],
  ['t', 'e', 'q', 'u', 'i', 'l', 'a'], ['t', 'e', 'r', 'm', 'i', 'n', 'a', 'l'], ['t', 'e', 's', 't', 'i', 'n', 'g'],
  ['t', 'e', 't', 'h', 'e', 'r'], ['t', 'e', 'x', 't', 'b', 'o', 'o', 'k'], ['t', 'h', 'a', 'w'],
  ['t', 'h', 'e', 'a', 't', 'r', 'i', 'c', 's'], ['t', 'h', 'i', 'r', 's', 't', 'y'], ['t', 'h', 'o', 'r', 'n'],
  ['t', 'h', 'r', 'e', 'a', 't', 'e', 'n'], ['t', 'h', 'u', 'm', 'b', 's'], ['t', 'h', 'w', 'a', 'r', 't'],
  ['t', 'i', 'c', 'k', 'e', 't'], ['t', 'i', 'd', 'y'], ['t', 'i', 'e', 'r', 's'], ['t', 'i', 'g', 'e', 'r'],
  ['t', 'i', 'l', 't'], ['t', 'i', 'm', 'b', 'e', 'r'], ['t', 'i', 'n', 't', 'e', 'd'], ['t', 'i', 'p', 's', 'y'],
  ['t', 'i', 'r', 'a', 'd', 'e'], ['t', 'i', 's', 's', 'u', 'e'], ['t', 'i', 't', 'a', 'n', 's'],
  ['t', 'o', 'a', 's', 't', 'e', 'r'], ['t', 'o', 'b', 'a', 'c', 'c', 'o'], ['t', 'o', 'd', 'a', 'y'],
  ['t', 'o', 'e', 'n', 'a', 'i', 'l'], ['t', 'o', 'f', 'f', 'e', 'e'], ['t', 'o', 'g', 'e', 't', 'h', 'e', 'r'],
  ['t', 'o', 'i', 'l', 'e', 't'], ['t', 'o', 'k', 'e', 'n'], ['t', 'o', 'l', 'e', 'r', 'a', 'n', 't'],
  ['t', 'o', 'm', 'o', 'r', 'r', 'o', 'w'], ['t', 'o', 'n', 'i', 'c'], ['t', 'o', 'o', 'l', 'b', 'o', 'x'],
  ['t', 'o', 'p', 'i', 'c'], ['t', 'o', 'r', 'c', 'h'], ['t', 'o', 's', 's', 'e', 'd'], ['t', 'o', 't', 'a', 'l'],
  ['t', 'o', 'u', 'c', 'h', 'y'], ['t', 'o', 'w', 'e', 'l'], ['t', 'o', 'x', 'i', 'c'], ['t', 'o', 'y', 'e', 'd'],
  ['t', 'r', 'a', 's', 'h'], ['t', 'r', 'e', 'n', 'd', 'y'], ['t', 'r', 'i', 'b', 'a', 'l'],
  ['t', 'r', 'o', 'l', 'l', 'i', 'n', 'g'], ['t', 'r', 'u', 't', 'h'], ['t', 'r', 'y', 'i', 'n', 'g'],
  ['t', 's', 'u', 'n', 'a', 'm', 'i'], ['t', 'u', 'b', 'e', 's'], ['t', 'u', 'c', 'k', 's'],
  ['t', 'u', 'd', 'o', 'r'], ['t', 'u', 'e', 's', 'd', 'a', 'y'], ['t', 'u', 'f', 't', 's'], ['t', 'u', 'g', 's'],
  ['t', 'u', 'i', 't', 'i', 'o', 'n'], ['t', 'u', 'l', 'i', 'p', 's'], ['t', 'u', 'm', 'b', 'l', 'i', 'n', 'g'],
  ['t', 'u', 'n', 'n', 'e', 'l'], ['t', 'u', 'r', 'n', 'i', 'p'], ['t', 'u', 's', 'k', 's'],
  ['t', 'u', 't', 'o', 'r'], ['t', 'u', 'x', 'e', 'd', 'o'], ['t', 'w', 'a', 'n', 'g'],
  ['t', 'w', 'e', 'e', 'z', 'e', 'r', 's'], ['t', 'w', 'i', 'c', 'e'], ['t', 'w', 'o', 'f', 'o', 'l', 'd'],
  ['t', 'y', 'c', 'o', 'o', 'n'], ['t', 'y', 'p', 'i', 's', 't'], ['t', 'y', 'r', 'a', 'n', 't'],
  ['u', 'g', 'l', 'y'], ['u', 'l', 'c', 'e', 'r', 's'], ['u', 'l', 't', 'i', 'm', 'a', 't', 'e'],
  ['u', 'm', 'b', 'r', 'e', 'l', 'l', 'a'], ['u', 'm', 'p', 'i', 'r', 'e'], ['u', 'n', 'a', 'f', 'r', 'a', 'i', 'd'],
  ['u', 'n', 'b', 'e', 'n', 'd', 'i', 'n', 'g'], ['u', 'n', 'c', 'l', 'e'], ['u', 'n', 'd', 'e', 'r'],
  ['u', 'n', 'e', 'v', 'e', 'n'], ['u', 'n', 'f', 'i', 't'], ['u', 'n', 'g', 'a', 'i', 'n', 'l', 'y'],
  ['u', 'n', 'h', 'a', 'p', 'p', 'y'], ['u', 'n', 'i', 'o', 'n'], ['u', 'n', 'j', 'u', 's', 't', 'l', 'y'],
  ['u', 'n', 'k', 'n', 'o', 'w', 'n'], ['u', 'n', 'l', 'i', 'k', 'e', 'l', 'y'], ['u', 'n', 'm', 'a', 's', 'k'],
  ['u', 'n', 'n', 'o', 't', 'i', 'c', 'e', 'd'], ['u', 'n', 'o', 'p', 'e', 'n', 'e', 'd'],
  ['u', 'n', 'p', 'l', 'u', 'g', 's'], ['u', 'n', 'q', 'u', 'o', 't', 'e', 'd'], ['u', 'n', 'r', 'e', 's', 't'],
  ['u', 'n', 's', 'a', 'f', 'e'], ['u', 'n', 't', 'i', 'l'], ['u', 'n', 'u', 's', 'u', 'a', 'l'],
  ['u', 'n', 'v', 'e', 'i', 'l'], ['u', 'n', 'w', 'i', 'n', 'd'], ['u', 'n', 'z', 'i', 'p'],
  ['u', 'p', 'b', 'e', 'a', 't'], ['u', 'p', 'c', 'o', 'm', 'i', 'n', 'g'], ['u', 'p', 'd', 'a', 't', 'e'],
  ['u', 'p', 'g', 'r', 'a', 'd', 'e'], ['u', 'p', 'h', 'i', 'l', 'l'], ['u', 'p', 'k', 'e', 'e', 'p'],
  ['u', 'p', 'l', 'o', 'a', 'd'], ['u', 'p', 'o', 'n'], ['u', 'p', 'p', 'e', 'r'],
  ['u', 'p', 'r', 'i', 'g', 'h', 't'], ['u', 'p', 's', 't', 'a', 'i', 'r', 's'], ['u', 'p', 't', 'i', 'g', 'h', 't'],
  ['u', 'p', 'w', 'a', 'r', 'd', 's'], ['u', 'r', 'b', 'a', 'n'], ['u', 'r', 'c', 'h', 'i', 'n', 's'],
  ['u', 'r', 'g', 'e', 'n', 't'], ['u', 's', 'a', 'g', 'e'], ['u', 's', 'e', 'f', 'u', 'l'],
  ['u', 's', 'h', 'e', 'r'], ['u', 's', 'i', 'n', 'g'], ['u', 's', 'u', 'a', 'l'],
  ['u', 't', 'e', 'n', 's', 'i', 'l', 's'], ['u', 't', 'i', 'l', 'i', 't', 'y'], ['u', 't', 'm', 'o', 's', 't'],
  ['u', 't', 'o', 'p', 'i', 'a'], ['u', 't', 't', 'e', 'r', 'e', 'd'], ['v', 'a', 'c', 'a', 't', 'i', 'o', 'n'],
  ['v', 'a', 'g', 'u', 'e'], ['v', 'a', 'i', 'n'], ['v', 'a', 'l', 'u', 'e'], ['v', 'a', 'm', 'p', 'i', 'r', 'e'],
  ['v', 'a', 'n', 'e'], ['v', 'a', 'p', 'i', 'd', 'l', 'y'], ['v', 'a', 'r', 'y'],
  ['v', 'a', 's', 't', 'n', 'e', 's', 's'], ['v', 'a', 't', 's'], ['v', 'a', 'u', 'l', 't', 's'],
  ['v', 'e', 'c', 't', 'o', 'r'], ['v', 'e', 'e', 'r', 'e', 'd'], ['v', 'e', 'g', 'a', 'n'],
  ['v', 'e', 'h', 'i', 'c', 'l', 'e'], ['v', 'e', 'i', 'n'], ['v', 'e', 'l', 'v', 'e', 't'],
  ['v', 'e', 'n', 'o', 'm', 'o', 'u', 's'], ['v', 'e', 'r', 'i', 'f', 'i', 'c', 'a', 't', 'i', 'o', 'n'],
  ['v', 'e', 's', 's', 'e', 'l'], ['v', 'e', 't', 'e', 'r', 'a', 'n'], ['v', 'e', 'x', 'e', 'd'],
  ['v', 'i', 'a', 'l', 's'], ['v', 'i', 'b', 'r', 'a', 't', 'e'], ['v', 'i', 'c', 't', 'i', 'm'],
  ['v', 'i', 'd', 'e', 'o'], ['v', 'i', 'e', 'w', 'p', 'o', 'i', 'n', 't'], ['v', 'i', 'g', 'i', 'l', 'a', 'n', 't'],
  ['v', 'i', 'k', 'i', 'n', 'g'], ['v', 'i', 'l', 'l', 'a', 'g', 'e'], ['v', 'i', 'n', 'e', 'g', 'a', 'r'],
  ['v', 'i', 'o', 'l', 'i', 'n'], ['v', 'i', 'p', 'e', 'r', 's'], ['v', 'i', 'r', 't', 'u', 'a', 'l'],
  ['v', 'i', 's', 'i', 't', 'e', 'd'], ['v', 'i', 't', 'a', 'l', 's'], ['v', 'i', 'v', 'i', 'd'],
  ['v', 'i', 'x', 'e', 'n'], ['v', 'o', 'c', 'a', 'l'], ['v', 'o', 'g', 'u', 'e'], ['v', 'o', 'i', 'c', 'e'],
  ['v', 'o', 'l', 'c', 'a', 'n', 'o'], ['v', 'o', 'r', 't', 'e', 'x'], ['v', 'o', 't', 'e', 'd'],
  ['v', 'o', 'u', 'c', 'h', 'e', 'r'], ['v', 'o', 'w', 'e', 'l', 's'], ['v', 'o', 'y', 'a', 'g', 'e'],
  ['v', 'u', 'l', 't', 'u', 'r', 'e'], ['w', 'a', 'd', 'e'], ['w', 'a', 'f', 'f', 'l', 'e'],
  ['w', 'a', 'g', 't', 'a', 'i', 'l'], ['w', 'a', 'i', 's', 't'], ['w', 'a', 'k', 'i', 'n', 'g'],
  ['w', 'a', 'l', 'l', 'e', 't', 's'], ['w', 'a', 'n', 't', 'e', 'd'], ['w', 'a', 'r', 'p', 'e', 'd'],
  ['w', 'a', 's', 'h', 'i', 'n', 'g'], ['w', 'a', 't', 'e', 'r'], ['w', 'a', 'v', 'e', 'f', 'o', 'r', 'm'],
  ['w', 'a', 'x', 'i', 'n', 'g'], ['w', 'a', 'y', 's', 'i', 'd', 'e'], ['w', 'e', 'a', 'v', 'e', 'r', 's'],
  ['w', 'e', 'b', 's', 'i', 't', 'e'], ['w', 'e', 'd', 'g', 'e'], ['w', 'e', 'e', 'k', 'd', 'a', 'y'],
  ['w', 'e', 'i', 'r', 'd'], ['w', 'e', 'l', 'd', 'e', 'r', 's'], ['w', 'e', 'n', 't'], ['w', 'e', 'p', 't'],
  ['w', 'e', 'r', 'e'], ['w', 'e', 's', 't', 'e', 'r', 'n'], ['w', 'e', 't', 's', 'u', 'i', 't'],
  ['w', 'h', 'a', 'l', 'e'], ['w', 'h', 'e', 'n'], ['w', 'h', 'i', 'p', 'p', 'e', 'd'], ['w', 'h', 'o', 'l', 'e'],
  ['w', 'i', 'c', 'k', 'e', 't', 's'], ['w', 'i', 'd', 't', 'h'], ['w', 'i', 'e', 'l', 'd'], ['w', 'i', 'f', 'e'],
  ['w', 'i', 'g', 'g', 'l', 'e'], ['w', 'i', 'l', 'd', 'l', 'y'], ['w', 'i', 'n', 't', 'e', 'r'],
  ['w', 'i', 'p', 'e', 'o', 'u', 't'], ['w', 'i', 'r', 'i', 'n', 'g'], ['w', 'i', 's', 'e'],
  ['w', 'i', 't', 'h', 'd', 'r', 'a', 'w', 'n'], ['w', 'i', 'v', 'e', 's'], ['w', 'i', 'z', 'a', 'r', 'd'],
  ['w', 'o', 'b', 'b', 'l', 'y'], ['w', 'o', 'e', 's'], ['w', 'o', 'k', 'e', 'n'], ['w', 'o', 'l', 'f'],
  ['w', 'o', 'm', 'a', 'n', 'l', 'y'], ['w', 'o', 'n', 'd', 'e', 'r', 's'], ['w', 'o', 'o', 'z', 'y'],
  ['w', 'o', 'r', 'r', 'y'], ['w', 'o', 'u', 'n', 'd', 'e', 'd'], ['w', 'o', 'v', 'e', 'n'], ['w', 'r', 'a', 'p'],
  ['w', 'r', 'i', 's', 't'], ['w', 'r', 'o', 'n', 'g'], ['y', 'a', 'c', 'h', 't'], ['y', 'a', 'h', 'o', 'o'],
  ['y', 'a', 'n', 'k', 's'], ['y', 'a', 'r', 'd'], ['y', 'a', 'w', 'n', 'i', 'n', 'g'],
  ['y', 'e', 'a', 'r', 'b', 'o', 'o', 'k'], ['y', 'e', 'l', 'l', 'o', 'w'],
  ['y', 'e', 's', 't', 'e', 'r', 'd', 'a', 'y'], ['y', 'e', 't', 'i'], ['y', 'i', 'e', 'l', 'd', 's'],
  ['y', 'o', 'd', 'e', 'l'], ['y', 'o', 'g', 'a'], ['y', 'o', 'u', 'n', 'g', 'e', 'r'], ['y', 'o', 'y', 'o'],
  ['z', 'a', 'p', 'p', 'e', 'd'], ['z', 'e', 'a', 'l'], ['z', 'e', 'b', 'r', 'a'], ['z', 'e', 'r', 'o'],
  ['z', 'e', 's', 't', 'y'], ['z', 'i', 'g', 'z', 'a', 'g', 's'], ['z', 'i', 'n', 'g', 'e', 'r'],
  ['z', 'i', 'p', 'p', 'e', 'r', 's'], ['z', 'o', 'd', 'i', 'a', 'c'], ['z', 'o', 'm', 'b', 'i', 'e'],
  ['z', 'o', 'n', 'e', 's'], ['z', 'o', 'o', 'm']]

/-- A word the list may hold: nonempty, of lowercase ASCII letters only. -/
def isWord (word : List Char) : Bool :=
  !word.isEmpty && word.all Char.isLower

theorem length_English : English.length = 1626 := by
  decide +kernel

theorem isChain_lt_English : English.IsChain (· < ·) := by
  decide +kernel

theorem nodup_English : English.Nodup :=
  (List.isChain_iff_pairwise.mp isChain_lt_English).nodup

theorem isWord_of_mem_English : ∀ word ∈ English, isWord word = true := by
  decide +kernel

end Crygcoin.WordList
